import Cubic.Codec.Reader
import Cubic.Version.Identifier

/-!
# Server addresses (`address.rs`)

Whether a text is an IPv6 address is a parameter.
-/

namespace Cubic.Network

set_option autoImplicit false

def defaultMinecraftPort : UInt16 := 25565
def maxLogicalHostUtf16Units : Nat := 255

structure ServerAddress where
  host : String
  port : UInt16
  ipv6Literal : Bool
  deriving DecidableEq

inductive ServerAddressError where
  | emptyHost
  | whitespace
  | malformedBrackets
  | unbracketedIpv6
  | invalidSyntax
  | missingPort
  | invalidPort
  | zeroPort
  | invalidIpv6
  | hostTooLong (max : Nat)
  | controlCharacter
  deriving DecidableEq

/-- `char::is_whitespace`: the characters with the property `White_Space` -/
def isWhitespace (c : Char) : Bool :=
  let n := c.toNat
  (0x09 ≤ n && n ≤ 0x0d) || n = 0x20 || n = 0x85 || n = 0xa0 || n = 0x1680 ||
    (0x2000 ≤ n && n ≤ 0x200a) || n = 0x2028 || n = 0x2029 || n = 0x202f || n = 0x205f || n = 0x3000

/-- `str::parse::<u16>`: digits, after a plus sign or not -/
def parseU16 (value : List Char) : Option UInt16 :=
  let digits := if value.head? = some '+' then value.tail else value
  if digits.isEmpty ∨ ¬ digits.all Char.isDigit then none
  else
    let n := Nat.ofDigitChars 10 digits 0
    if n < 2 ^ 16 then some (.ofNat n) else none

def parsePort (value : List Char) : Except ServerAddressError UInt16 :=
  if value.isEmpty then .error .missingPort
  else match parseU16 value with
    | none => .error .invalidPort
    | some port => if port = 0 then .error .zeroPort else .ok port

def validateHost (host : String) : Except ServerAddressError Unit :=
  if host.toList.isEmpty then .error .emptyHost
  else if utf16Units host > maxLogicalHostUtf16Units then
    .error (.hostTooLong maxLogicalHostUtf16Units)
  else if host.toList.any isControl then .error .controlCharacter
  else .ok ()

/-- The port after the closing bracket. -/
def parseSuffix : List Char → Except ServerAddressError UInt16
  | [] => .ok defaultMinecraftPort
  | ':' :: port => parsePort port
  | _ => .error .malformedBrackets

section
variable (isIpv6 : String → Bool)

def parseBracketedIpv6 (inputAfterOpen : List Char) : Except ServerAddressError ServerAddress :=
  match splitOnce ']' inputAfterOpen with
  | none => .error .malformedBrackets
  | some (host, suffix) =>
    if host.isEmpty then .error .emptyHost
    else if ¬ isIpv6 (.ofList host) then .error .invalidIpv6
    else do
      let port ← parseSuffix suffix
      pure ⟨.ofList host, port, true⟩

/-- The host and the port of an address without brackets. -/
def splitHostPort (input : List Char) : Except ServerAddressError (List Char × UInt16) :=
  match input.count ':' with
  | 0 => .ok (input, defaultMinecraftPort)
  | 1 =>
    match splitOnce ':' input with
    | none => .error .invalidSyntax
    | some (host, port) => do
      let port ← parsePort port
      pure (host, port)
  | _ => .error .unbracketedIpv6

/-- `ServerAddress::from_str` -/
def ServerAddress.fromStr (input : String) : Except ServerAddressError ServerAddress :=
  let chars := input.toList
  if chars.isEmpty then .error .emptyHost
  else if chars.any isWhitespace then .error .whitespace
  else if chars.head? = some '[' then parseBracketedIpv6 isIpv6 chars.tail
  else if chars.any ['[', ']'].contains then .error .malformedBrackets
  else do
    let (host, port) ← splitHostPort chars
    validateHost (.ofList host)
    pure ⟨.ofList host, port, false⟩

end

/-- `Display` -/
def ServerAddress.display (address : ServerAddress) : String :=
  let port := Nat.toDigits 10 address.port.toNat
  if address.ipv6Literal then .ofList ('[' :: (address.host.toList ++ ']' :: ':' :: port))
  else .ofList (address.host.toList ++ ':' :: port)

/-! ### Ports -/

theorem parsePort_toDigits {port : UInt16} (h : port ≠ 0) :
    parsePort (Nat.toDigits 10 port.toNat) = .ok port := by
  have hne : Nat.toDigits 10 port.toNat ≠ [] := Nat.toDigits_ne_nil
  have hdigits : ∀ c ∈ Nat.toDigits 10 port.toNat, c.isDigit :=
    fun c hc => Nat.isDigit_of_mem_toDigits (by decide) (by decide) hc
  have hsign : (Nat.toDigits 10 port.toNat).head? ≠ some '+' := by
    intro hplus
    have hdigit := hdigits '+' (List.mem_of_mem_head? hplus)
    cases hdigit
  have hparse : parseU16 (Nat.toDigits 10 port.toNat) = some port := by
    have hbad : ¬ ((Nat.toDigits 10 port.toNat).isEmpty = true ∨
        ¬ (Nat.toDigits 10 port.toNat).all Char.isDigit = true) := by
      rintro (hempty | hall)
      · exact hne (List.isEmpty_iff.mp hempty)
      · exact hall (List.all_eq_true.mpr hdigits)
    unfold parseU16
    rw [if_neg hsign]
    dsimp only
    rw [if_neg hbad, Nat.ofDigitChars_ten_toDigits, if_pos port.toNat_lt, UInt16.ofNat_toNat]
  unfold parsePort
  rw [if_neg (mt List.isEmpty_iff.mp hne), hparse]
  exact if_neg h

theorem parsePort_ne_zero {value : List Char} {port : UInt16} (h : parsePort value = .ok port) :
    port ≠ 0 := by
  unfold parsePort at h
  split at h
  · cases h
  · split at h
    · cases h
    · split at h
      · cases h
      · cases h
        assumption

/-! ### What is accepted -/

theorem splitOnce_eq_some {separator : Char} {text before after : List Char}
    (h : splitOnce separator text = some (before, after)) :
    text = before ++ separator :: after ∧ separator ∉ before := by
  induction text generalizing before with
  | nil => cases h
  | cons c rest ih =>
    rw [splitOnce] at h
    split at h
    · rename_i hc
      cases h
      exact ⟨by rw [hc, List.nil_append], List.not_mem_nil⟩
    · rename_i hc
      obtain ⟨⟨first, last⟩, hparts, heq⟩ := Option.map_eq_some_iff.mp h
      cases heq
      obtain ⟨hrest, hnot⟩ := ih hparts
      refine ⟨by rw [hrest, List.cons_append], ?_⟩
      rw [List.mem_cons, not_or]
      exact ⟨fun heq => hc heq.symm, hnot⟩

theorem splitOnce_append {separator : Char} {before : List Char} (after : List Char)
    (h : separator ∉ before) :
    splitOnce separator (before ++ separator :: after) = some (before, after) := by
  induction before with
  | nil => rw [List.nil_append, splitOnce, if_pos rfl]
  | cons c rest ih =>
    rw [List.mem_cons, not_or] at h
    rw [List.cons_append, splitOnce, if_neg (fun heq => h.1 heq.symm), ih h.2]
    rfl

/-- What the parts of an accepted address satisfy. -/
structure ServerAddress.Printable (isIpv6 : String → Bool) (address : ServerAddress) : Prop where
  port : address.port ≠ 0
  nonempty : address.host.toList ≠ []
  solid : ∀ c ∈ address.host.toList, isWhitespace c = false
  closed : ']' ∉ address.host.toList
  literal : address.ipv6Literal = true → isIpv6 address.host = true
  plain : address.ipv6Literal = false → '[' ∉ address.host.toList ∧ ':' ∉ address.host.toList ∧
    validateHost address.host = .ok ()

section
variable {isIpv6 : String → Bool}

theorem parseSuffix_ne_zero {suffix : List Char} {port : UInt16}
    (h : parseSuffix suffix = .ok port) : port ≠ 0 := by
  unfold parseSuffix at h
  split at h
  · cases h
    decide
  · exact parsePort_ne_zero h
  · cases h

theorem printable_of_bracketed {input : List Char} {address : ServerAddress}
    (hsolid : ∀ c ∈ input, isWhitespace c = false)
    (h : parseBracketedIpv6 isIpv6 input = .ok address) : address.Printable isIpv6 := by
  unfold parseBracketedIpv6 at h
  split at h
  · cases h
  · rename_i host suffix hsplit
    obtain ⟨hinput, hclosed⟩ := splitOnce_eq_some hsplit
    split at h
    · cases h
    · rename_i hempty
      split at h
      · cases h
      · rename_i hipv6
        obtain ⟨port, hport, h⟩ := Mut.except_bind_eq_ok.mp h
        cases h
        refine ⟨parseSuffix_ne_zero hport, ?_, ?_, ?_, fun _ => not_not.mp hipv6, ?_⟩
        · rw [String.toList_ofList]
          exact mt List.isEmpty_iff.mpr hempty
        · rw [String.toList_ofList]
          intro c hc
          apply hsolid
          rw [hinput]
          exact List.mem_append_left _ hc
        · rw [String.toList_ofList]
          exact hclosed
        · intro hliteral
          cases hliteral

/-- The host is a part of the input, without the colon. -/
theorem splitHostPort_eq_ok {input host : List Char} {port : UInt16}
    (h : splitHostPort input = .ok (host, port)) :
    (∀ c ∈ host, c ∈ input) ∧ ':' ∉ host ∧ port ≠ 0 := by
  unfold splitHostPort at h
  split at h
  · rename_i hcount
    cases h
    exact ⟨fun _ => id, List.count_eq_zero.mp hcount, by decide⟩
  · split at h
    · cases h
    · rename_i before after hsplit
      obtain ⟨hinput, hnot⟩ := splitOnce_eq_some hsplit
      obtain ⟨value, hvalue, h⟩ := Mut.except_bind_eq_ok.mp h
      cases h
      refine ⟨fun c hc => ?_, hnot, parsePort_ne_zero hvalue⟩
      rw [hinput]
      exact List.mem_append_left _ hc
  · cases h

theorem nonempty_of_validateHost {host : String} (h : validateHost host = .ok ()) :
    host.toList ≠ [] := by
  intro hempty
  unfold validateHost at h
  rw [hempty] at h
  cases h

theorem printable_of_fromStr {input : String} {address : ServerAddress}
    (h : ServerAddress.fromStr isIpv6 input = .ok address) : address.Printable isIpv6 := by
  unfold ServerAddress.fromStr at h
  dsimp only at h
  split at h
  · cases h
  · split at h
    · cases h
    · rename_i hspace
      have hsolid : ∀ c ∈ input.toList, isWhitespace c = false := by
        simpa using hspace
      split at h
      · exact printable_of_bracketed (fun c hc => hsolid c (List.mem_of_mem_tail hc)) h
      · split at h
        · cases h
        · rename_i hbrackets
          have hplain : '[' ∉ input.toList ∧ ']' ∉ input.toList := by
            constructor
            · exact fun hc => hbrackets (List.any_eq_true.mpr ⟨'[', hc, by decide⟩)
            · exact fun hc => hbrackets (List.any_eq_true.mpr ⟨']', hc, by decide⟩)
          obtain ⟨⟨host, port⟩, hsplit, h⟩ := Mut.except_bind_eq_ok.mp h
          obtain ⟨hmem, hcolon, hport⟩ := splitHostPort_eq_ok hsplit
          obtain ⟨⟨⟩, hvalid, h⟩ := Mut.except_bind_eq_ok.mp h
          cases h
          have hnonempty := nonempty_of_validateHost hvalid
          refine ⟨hport, hnonempty, ?_, ?_, ?_, fun _ => ⟨?_, ?_, hvalid⟩⟩
          · rw [String.toList_ofList]
            exact fun c hc => hsolid c (hmem c hc)
          · rw [String.toList_ofList]
            exact fun hc => hplain.2 (hmem _ hc)
          · intro hliteral
            cases hliteral
          · rw [String.toList_ofList]
            exact fun hc => hplain.1 (hmem _ hc)
          · rw [String.toList_ofList]
            exact hcolon

/-! ### What is printed is read back -/

theorem solid_toDigits (n : Nat) : ∀ c ∈ Nat.toDigits 10 n,
    isWhitespace c = false ∧ c ∉ ['[', ']', ':'] := by
  intro c hc
  have hdigit := Nat.isDigit_of_mem_toDigits (by decide) (by decide) hc
  have hrange : 48 ≤ c.toNat ∧ c.toNat ≤ 57 := by
    unfold Char.isDigit at hdigit
    simp only [Bool.and_eq_true, decide_eq_true_eq] at hdigit
    exact hdigit
  constructor
  · unfold isWhitespace
    dsimp only
    simp only [Bool.or_eq_false_iff, Bool.and_eq_false_iff, decide_eq_false_iff_not]
    omega
  · intro hmem
    simp only [List.mem_cons, List.not_mem_nil, or_false] at hmem
    rcases hmem with rfl | rfl | rfl
    · exact absurd hrange.2 (by decide)
    · exact absurd hrange.2 (by decide)
    · exact absurd hrange.2 (by decide)

theorem solid_display (address : ServerAddress) (h : address.Printable isIpv6) :
    ∀ c ∈ address.display.toList, isWhitespace c = false := by
  unfold ServerAddress.display
  dsimp only
  split
  · rw [String.toList_ofList]
    intro c hc
    simp only [List.mem_cons, List.mem_append] at hc
    rcases hc with rfl | hc | rfl | rfl | hc
    · decide
    · exact h.solid c hc
    · decide
    · decide
    · exact (solid_toDigits _ c hc).1
  · rw [String.toList_ofList]
    intro c hc
    simp only [List.mem_cons, List.mem_append] at hc
    rcases hc with hc | rfl | hc
    · exact h.solid c hc
    · decide
    · exact (solid_toDigits _ c hc).1

theorem fromStr_display {address : ServerAddress} (h : address.Printable isIpv6) :
    ServerAddress.fromStr isIpv6 address.display = .ok address := by
  have hspace : ¬ address.display.toList.any isWhitespace = true := by
    simpa using solid_display address h
  unfold ServerAddress.fromStr
  dsimp only
  cases hliteral : address.ipv6Literal with
  | true =>
    have hchars : address.display.toList =
        '[' :: (address.host.toList ++ ']' :: ':' :: Nat.toDigits 10 address.port.toNat) := by
      unfold ServerAddress.display
      rw [if_pos hliteral, String.toList_ofList]
    rw [if_neg hspace, hchars, if_neg (by rw [List.isEmpty_cons]; exact Bool.false_ne_true),
      if_pos List.head?_cons, List.tail_cons]
    unfold parseBracketedIpv6
    rw [splitOnce_append _ h.closed]
    dsimp only
    rw [if_neg (mt List.isEmpty_iff.mp h.nonempty), String.ofList_toList,
      if_neg (not_not.mpr (h.literal hliteral))]
    refine Mut.except_bind_eq_ok.mpr ⟨address.port, parsePort_toDigits h.port, ?_⟩
    rw [← hliteral]
    rfl
  | false =>
    obtain ⟨hopen, hcolon, hvalid⟩ := h.plain hliteral
    have hchars : address.display.toList =
        address.host.toList ++ ':' :: Nat.toDigits 10 address.port.toNat := by
      unfold ServerAddress.display
      rw [if_neg (by rw [hliteral]; exact Bool.false_ne_true), String.toList_ofList]
    have hdigits : ∀ c ∈ ['[', ']', ':'], c ∉ Nat.toDigits 10 address.port.toNat :=
      fun c hc hmem => (solid_toDigits _ c hmem).2 hc
    have hempty : ¬ (address.host.toList ++ ':' :: Nat.toDigits 10 address.port.toNat).isEmpty = true := by
      simp
    have hhead : (address.host.toList ++ ':' :: Nat.toDigits 10 address.port.toNat).head? ≠
        some '[' := by
      rw [List.head?_append_of_ne_nil _ h.nonempty]
      exact fun heq => hopen (List.mem_of_mem_head? heq)
    have hbrackets : ¬ (address.host.toList ++ ':' :: Nat.toDigits 10 address.port.toNat).any
        ['[', ']'].contains = true := by
      rw [List.any_eq_true]
      intro hany
      obtain ⟨c, hmem, hbracket⟩ := hany
      have hc : c = '[' ∨ c = ']' := by simpa using hbracket
      rcases List.mem_append.mp hmem with hmem | hmem
      · rcases hc with rfl | rfl
        · exact hopen hmem
        · exact h.closed hmem
      · rcases List.mem_cons.mp hmem with rfl | hmem
        · rcases hc with hc | hc <;> cases hc
        · exact hdigits c (by rcases hc with rfl | rfl <;> simp) hmem
    have hcount : (address.host.toList ++ ':' :: Nat.toDigits 10 address.port.toNat).count ':' = 1 := by
      rw [List.count_append, List.count_cons_self, List.count_eq_zero.mpr hcolon,
        List.count_eq_zero.mpr (hdigits ':' (by decide))]
    have hsplit : splitHostPort (address.host.toList ++ ':' :: Nat.toDigits 10 address.port.toNat) =
        .ok (address.host.toList, address.port) := by
      unfold splitHostPort
      rw [hcount, splitOnce_append _ hcolon]
      exact Mut.except_bind_eq_ok.mpr ⟨_, parsePort_toDigits h.port, rfl⟩
    rw [if_neg hspace, hchars, if_neg hempty, if_neg hhead, if_neg hbrackets]
    refine Mut.except_bind_eq_ok.mpr ⟨_, hsplit, ?_⟩
    dsimp only
    rw [String.ofList_toList]
    refine Mut.except_bind_eq_ok.mpr ⟨(), hvalid, ?_⟩
    rw [← hliteral]
    rfl

end

theorem display_fromStr (isIpv6 : String → Bool) {input : String} {address : ServerAddress}
    (h : ServerAddress.fromStr isIpv6 input = .ok address) :
    ServerAddress.fromStr isIpv6 address.display = .ok address :=
  fromStr_display (printable_of_fromStr h)

/-- A bracketed literal without a port: the printed text has one. -/
theorem display_fromStr_loopback :
    ServerAddress.fromStr (· = "::1") (ServerAddress.display ⟨"::1", 25565, true⟩) =
      .ok ⟨"::1", 25565, true⟩ :=
  @display_fromStr (· = "::1") "[::1]" ⟨"::1", 25565, true⟩ (by decide)

end Cubic.Network
