import Cubic.Control.InventoryHandlers
import Cubic.Lib.Run

/-!
# Inventory traffic between the client and its server

Packets, queued commands and the client's closes each arrive in order, and in any
interleaving with one another. Both sides may close a container before they hear that
the other has.
-/

namespace Cubic.Control

set_option autoImplicit false

open Inventory InventoryState Mut

structure Traffic where
  client : InventoryState
  /-- Packets on their way to the client. -/
  toClient : List InventoryPacket
  commands : List InventoryCommand
  /-- Closes on their way to the server. -/
  toServer : List ContainerId
  /-- The containers the server has opened and not yet seen closed. -/
  serverOpen : List ContainerId
  /-- What the server has said of numbers of slots, and how much of it has arrived. -/
  told : SlotCounts
  heard : SlotCounts
  /-- A handler has returned an error about the inventory's state, or panicked. -/
  failed : Bool
  /-- An input about a stale container has changed the inventory. -/
  disturbed : Bool

inductive TrafficEvent where
  | serverSend (packet : InventoryPacket)
  | uiCommand (command : InventoryCommand)
  | clientReceive
  | clientService
  | serverReceive

namespace InventoryPacket

/-- The server sends only about the player's inventory and what it has open. -/
def IsAbout (serverOpen : List ContainerId) : InventoryPacket → Prop
  | close container => container ∈ serverOpen
  | setContent container _ _ _ => container = playerContainerId ∨ container ∈ serverOpen
  | setSlot container _ _ _ => container = playerContainerId ∨ container ∈ serverOpen
  | setData container _ _ => container = playerContainerId ∨ container ∈ serverOpen
  | _ => True

instance (serverOpen : List ContainerId) (p : InventoryPacket) : Decidable (p.IsAbout serverOpen) :=
  match p with
  | close container => inferInstanceAs (Decidable (container ∈ serverOpen))
  | setContent container _ _ _ =>
    inferInstanceAs (Decidable (container = playerContainerId ∨ container ∈ serverOpen))
  | setSlot container _ _ _ =>
    inferInstanceAs (Decidable (container = playerContainerId ∨ container ∈ serverOpen))
  | setData container _ _ =>
    inferInstanceAs (Decidable (container = playerContainerId ∨ container ∈ serverOpen))
  | openScreen _ _ _ => isTrue trivial
  | setHeldSlot _ => isTrue trivial

def opens (serverOpen : List ContainerId) : InventoryPacket → List ContainerId
  | openScreen container _ _ => container :: serverOpen
  | close container => serverOpen.erase container
  | _ => serverOpen

end InventoryPacket

/-- The closes among what a command sent. -/
def closes : Option InventoryAction → List ContainerId
  | some (.containerClose container) => [container]
  | _ => []

namespace Traffic

def startCounts : SlotCounts :=
  fun id => if id = playerContainerId then playerInventorySlots else 0

def start : Traffic where
  client := .new
  toClient := []
  commands := []
  toServer := []
  serverOpen := []
  told := startCounts
  heard := startCounts
  failed := false
  disturbed := false

section
variable {E α : Type}

/-- The client goes on from a handler's outcome. Any other error ends the session. -/
def after (s : Traffic) (target : Option ContainerId) (sent : α → List ContainerId) :
    Outcome (ChatSessionError E) InventoryState α → Option Traffic
  | .ok a t => some
    { s with
      client := t
      toServer := s.toServer ++ sent a
      disturbed := s.disturbed || (stale s.client target && decide (t ≠ s.client)) }
  | .err e t => if e.IsState then some { s with client := t, failed := true } else none
  | .panic => some { s with failed := true }

variable (project : Projection E) (send : Send E)

def next (s : Traffic) : TrafficEvent → Option Traffic
  | .serverSend p =>
    if p.WellFormed s.told ∧ p.IsAbout s.serverOpen then some
      { s with
        toClient := s.toClient ++ [p]
        serverOpen := p.opens s.serverOpen
        told := p.tell s.told }
    else none
  | .uiCommand command =>
    if command.InRange then some { s with commands := s.commands ++ [command] } else none
  | .clientReceive =>
    match s.failed, s.toClient with
    | false, p :: rest =>
      after { s with toClient := rest, heard := p.tell s.heard } p.target (fun _ => [])
        (applyInventoryPacket project p s.client)
    | _, _ => none
  | .clientService =>
    match s.failed, s.commands with
    | false, command :: rest =>
      after { s with commands := rest } command.target closes
        (serviceInventoryCommand send command s.client)
    | _, _ => none
  | .serverReceive =>
    match s.toServer with
    | container :: rest =>
      some { s with toServer := rest, serverOpen := s.serverOpen.erase container }
    | [] => none

abbrev Step (s : Traffic) (event : TrafficEvent) (t : Traffic) : Prop :=
  s.next project send event = some t

/-- No handler has failed over the inventory's state, and no stale input has changed it. -/
def Undisturbed (s : Traffic) : Prop := s.failed = false ∧ s.disturbed = false

instance (s : Traffic) : Decidable s.Undisturbed := inferInstanceAs (Decidable (_ ∧ _))

/-- The input that the client is about to handle finds what it presupposes. -/
def Meets (s : Traffic) : TrafficEvent → Prop
  | .clientReceive => ∀ p ∈ s.toClient.head?, p.Finds s.client
  | .clientService => ∀ command ∈ s.commands.head?, command.Finds s.client
  | _ => True

/-! ### The invariant -/

/-- Each packet is well formed after those before it. -/
def InOrder : SlotCounts → List InventoryPacket → Prop
  | _, [] => True
  | counts, p :: rest => p.WellFormed counts ∧ InOrder (p.tell counts) rest

def tellAll (counts : SlotCounts) (packets : List InventoryPacket) : SlotCounts :=
  packets.foldl InventoryPacket.tell counts

theorem inOrder_concat {packets : List InventoryPacket} {p : InventoryPacket} :
    ∀ {counts : SlotCounts}, InOrder counts packets → p.WellFormed (tellAll counts packets) →
      InOrder counts (packets ++ [p]) := by
  induction packets with
  | nil => exact fun _ hp => ⟨hp, trivial⟩
  | cons q rest ih => exact fun h hp => ⟨h.1, ih h.2 hp⟩

theorem tellAll_concat (counts : SlotCounts) (packets : List InventoryPacket) (p : InventoryPacket) :
    tellAll counts (packets ++ [p]) = p.tell (tellAll counts packets) :=
  List.foldl_concat _ _ _ _

structure Kept (s : Traffic) : Prop where
  client : s.failed = false → Agrees s.heard s.client
  packets : InOrder s.heard s.toClient
  told : tellAll s.heard s.toClient = s.told
  commands : ∀ command ∈ s.commands, command.InRange

theorem kept_start : start.Kept := by
  refine ⟨?_, trivial, rfl, fun command hc => absurd hc List.not_mem_nil⟩
  intro _
  refine ⟨fun c hc => (nomatch hc), ?_, (if_pos rfl : startCounts playerContainerId = _), ?_⟩
  · intro id c hc
    by_cases hzero : id = playerContainerId
    · cases hzero
      cases hc
      exact List.length_replicate
    · cases ((container?_eq_some hzero).mp hc).1
  · intro c hc
    cases List.mem_singleton.mp hc
    refine ⟨?_, fun stack hs => (nomatch hs)⟩
    intro o ho stack hs
    rw [List.eq_of_mem_replicate ho] at hs
    cases hs

variable {project send} {s t : Traffic}

/-- What the client's step does to the invariant's parts. From an undisturbed state the
next one is undisturbed exactly when the input finds what it presupposes. -/
theorem after_cases {counts : SlotCounts} {target : Option ContainerId}
    {sent : α → List ContainerId} {finds : Prop}
    {call : SessionM E α} (hspec : wp call (handled counts s.client target finds) s.client)
    (h : after s target sent (call s.client) = some t) :
    (t.failed = false → Agrees counts t.client) ∧ t.heard = s.heard ∧ t.told = s.told ∧
      t.toClient = s.toClient ∧ t.commands = s.commands ∧
      (s.Undisturbed → (t.Undisturbed ↔ finds)) := by
  unfold wp at hspec
  cases hrun : call s.client with
  | ok a client =>
    rw [hrun] at hspec h
    obtain ⟨hagrees, hiff⟩ := hspec
    cases h
    refine ⟨fun _ => hagrees, rfl, rfl, rfl, rfl, ?_⟩
    rintro ⟨hfailed, hdisturbed⟩
    rw [← not_iff_not, ← hiff]
    simp [Undisturbed, hfailed, hdisturbed]
  | err e client =>
    rw [hrun] at hspec h
    rw [after] at h
    split at h
    · rename_i hstate
      cases h
      refine ⟨fun hfailed => (nomatch hfailed), rfl, rfl, rfl, rfl, fun _ => ?_⟩
      exact iff_of_false (fun hu => nomatch hu.1) (hspec hstate)
    · cases h
  | panic =>
    rw [hrun] at hspec
    exact hspec.elim

theorem Kept.next (hk : s.Kept) {event : TrafficEvent} (h : s.next project send event = some t) :
    t.Kept ∧ (s.Undisturbed → (t.Undisturbed ↔ s.Meets event)) := by
  cases event with
  | serverSend p =>
    rw [Traffic.next] at h
    split at h
    · rename_i hguard
      cases h
      refine ⟨⟨hk.client, ?_, ?_, hk.commands⟩, fun hs => iff_of_true hs trivial⟩
      · apply inOrder_concat hk.packets
        rw [hk.told]
        exact hguard.1
      · change tellAll s.heard (s.toClient ++ [p]) = p.tell s.told
        rw [tellAll_concat, hk.told]
    · cases h
  | uiCommand command =>
    rw [Traffic.next] at h
    split at h
    · rename_i hrange
      cases h
      refine ⟨⟨hk.client, hk.packets, hk.told, ?_⟩, fun hs => iff_of_true hs trivial⟩
      intro c hc
      rcases List.mem_append.mp hc with hc | hc
      · exact hk.commands c hc
      · rw [List.mem_singleton.mp hc]
        exact hrange
    · cases h
  | clientReceive =>
    rw [Traffic.next] at h
    split at h
    · rename_i p rest hfailed hq
      have hpackets := hk.packets
      have htold := hk.told
      rw [hq] at hpackets htold
      have hspec := applyInventoryPacket_spec project (hk.client hfailed) hpackets.1
      obtain ⟨hagrees, hheard, htold', hrest, hcommands, hiff⟩ :=
        after_cases (s := { s with toClient := rest, heard := p.tell s.heard }) hspec h
      refine ⟨⟨?_, ?_, ?_, ?_⟩, ?_⟩
      · rw [hheard]
        exact hagrees
      · rw [hheard, hrest]
        exact hpackets.2
      · rw [hheard, hrest, htold']
        exact htold
      · rw [hcommands]
        exact hk.commands
      · intro hs
        rw [hiff hs, Meets, hq]
        simp
    · cases h
  | clientService =>
    rw [Traffic.next] at h
    split at h
    · rename_i command rest hfailed hq
      have hranges := hk.commands
      rw [hq] at hranges
      obtain ⟨hcommand, hranges⟩ := List.forall_mem_cons.mp hranges
      have hspec := serviceInventoryCommand_spec send (hk.client hfailed) hcommand
      obtain ⟨hagrees, hheard, htold, hpackets, hrest, hiff⟩ :=
        after_cases (s := { s with commands := rest }) hspec h
      refine ⟨⟨?_, ?_, ?_, ?_⟩, ?_⟩
      · rw [hheard]
        exact hagrees
      · rw [hheard, hpackets]
        exact hk.packets
      · rw [hheard, hpackets, htold]
        exact hk.told
      · rw [hrest]
        exact hranges
      · intro hs
        rw [hiff hs, Meets, hq]
        simp
    · cases h
  | serverReceive =>
    rw [Traffic.next] at h
    split at h
    · cases h
      exact ⟨⟨hk.client, hk.packets, hk.told, hk.commands⟩, fun hs => iff_of_true hs trivial⟩
    · cases h

end

/-- Along a run no handler fails over the inventory's state, and no stale input changes it,
exactly when each input finds what it presupposes. -/
theorem traffic_undisturbed_iff {E : Type} (project : Projection E) (send : Send E)
    {events : List TrafficEvent} {t : Traffic}
    (hrun : Run (Step project send) start events t) :
    (∀ before m, before <+: events → Run (Step project send) start before m → m.Undisturbed) ↔
      Run (fun s event t => Step project send s event t ∧ s.Meets event) start events t := by
  apply Run.forall_iff (I := Kept) ?_ ?_ ?_ hrun kept_start ⟨rfl, rfl⟩
  · intro s event t t' h h'
    exact Option.some.inj (h.symm.trans h')
  · exact fun s event t hk h => (hk.next h).1
  · exact fun s event t hk hs h => (hk.next h).2 hs

/-! ### Runs -/

def anyProjection : Projection Empty := fun _ bytes => .ok (.opaqueBytes bytes)

def alwaysSent : Send Empty := fun _ => .ok ()

def hopper : MinecraftIdentifier := ⟨"minecraft:hopper", by decide +kernel⟩

/-- A container of two slots is opened, filled, and closed by the player. -/
def visit : List TrafficEvent :=
  [.serverSend (.openScreen ⟨1⟩ hopper "Hopper"), .clientReceive,
    .serverSend (.setContent ⟨1⟩ 1 [none, none] none), .clientReceive,
    .uiCommand (.close ⟨1⟩), .clientService]

theorem traffic_undisturbed_iff_visit :
    ∃ t, Run (Step anyProjection alwaysSent) start visit t ∧ t.Undisturbed ∧
      ((∀ before m, before <+: visit → Run (Step anyProjection alwaysSent) start before m →
          m.Undisturbed) ↔
        Run (fun s event t => Step anyProjection alwaysSent s event t ∧ s.Meets event)
          start visit t) := by
  have h : ∃ t, Run (Step anyProjection alwaysSent) start visit t ∧ t.Undisturbed :=
    Run.exists_of_foldlM (by decide +kernel)
  obtain ⟨t, hrun, ht⟩ := h
  exact ⟨t, hrun, ht, traffic_undisturbed_iff anyProjection alwaysSent hrun⟩

/-- The server sets a slot before it has seen the close; the server's close crosses the
player's; a click on a container that the server has closed drops the gesture begun since. -/
theorem traffic_disturbed :
    (∃ t, Run (Step anyProjection alwaysSent) start
        (visit ++ [.serverSend (.setSlot ⟨1⟩ 1 ⟨0⟩ none), .clientReceive]) t ∧
      t.failed = true) ∧
    (∃ t, Run (Step anyProjection alwaysSent) start
        [.serverSend (.openScreen ⟨1⟩ hopper "Hopper"), .clientReceive, .uiCommand (.close ⟨1⟩),
          .serverSend (.close ⟨1⟩), .clientReceive, .clientService] t ∧
      t.failed = true) ∧
    ∃ t, Run (Step anyProjection alwaysSent) start
        [.serverSend (.openScreen ⟨1⟩ hopper "Hopper"), .clientReceive,
          .uiCommand (.creativeCarried (some (stone 1))), .clientService,
          .uiCommand (.click ⟨⟨0⟩, 0, ⟨-999⟩, 0, .quickCraft⟩),
          .uiCommand (.click ⟨⟨1⟩, 0, ⟨0⟩, 0, .pickup⟩),
          .serverSend (.close ⟨1⟩), .clientReceive, .clientService, .clientService] t ∧
      t.disturbed = true := by
  refine ⟨?_, ?_, ?_⟩
  · exact Run.exists_of_foldlM (by decide +kernel)
  · exact Run.exists_of_foldlM (by decide +kernel)
  · exact Run.exists_of_foldlM (by decide +kernel)

end Traffic

end Cubic.Control
