import Cubic.Lib.Mut
import Cubic.Lib.Meter
import Cubic.Lib.Frame
import Cubic.Lib.OrderedMap
import Cubic.Lib.Machine
import Cubic.Lib.Tally
import Cubic.Lib.Dealing
import Cubic.Lib.VarLength
import Cubic.Lib.Incremental
import Cubic.Lib.BigEndian
import Cubic.Lib.BitField
import Cubic.Lib.Utf8
import Cubic.Codec.Error
import Cubic.Codec.VarInt
import Cubic.Codec.Reader
import Cubic.Codec.Writer
import Cubic.Codec.Frame
import Cubic.Codec.BitSet
import Cubic.Codec.FrameStream
import Cubic.Codec.VarIntAgreement
import Cubic.Codec.BitSetCodec
import Cubic.Codec.Position
import Cubic.Play.Protocol
import Cubic.Play.BlockUpdate
import Cubic.Play.BlockUpdateAgreement
import Cubic.Play.ChunkSection
import Cubic.Play.ChunkTotal
import Cubic.Play.PackedStorage
import Cubic.Nbt.Tag
import Cubic.Nbt.Lookup
import Cubic.Nbt.Budget
import Cubic.Nbt.Text
import Cubic.Nbt.Encode
import Cubic.Nbt.Decode
import Cubic.Nbt.TextSize
import Cubic.Play.TextComponent
import Cubic.Play.LevelChunk
import Cubic.Nbt.Accounting
import Cubic.Nbt.Wire
import Cubic.Nbt.RoundTrip
import Cubic.Nbt.Canonical
import Cubic.Nbt.Unnamed
import Cubic.Version.Identifier
import Cubic.Lib.BinarySearch
import Cubic.Version.GameData
import Cubic.Version.Lookups
import Cubic.Version.Official
import Cubic.Resources.Cache
import Cubic.Resources.Bootstrap
import Cubic.Resources.Transparency
import Cubic.Network.ServerHash
import Cubic.Network.ServerAddress
import Cubic.Inventory.Item
import Cubic.Inventory.Container
import Cubic.Inventory.State
import Cubic.Inventory.Operation
import Cubic.Inventory.Counts
import Cubic.Inventory.ClickCounts
import Cubic.Inventory.Gesture
import Cubic.Inventory.Conservation
import Cubic.Inventory.ClickFrame
import Cubic.Inventory.Atomicity
import Cubic.Inventory.ClickSteps
import Cubic.Inventory.ClickReport
import Cubic.Inventory.QuickCraft
import Cubic.Inventory.Drag
import Cubic.Inventory.PickAll
import Cubic.Inventory.Coherence
import Cubic.Inventory.Semantic
import Cubic.Inventory.ComponentText
import Cubic.Lib.Run
import Cubic.Lib.Overlay
import Cubic.Chat.SecureChat
import Cubic.Chat.Acknowledgement
import Cubic.Chat.SigningInput
import Cubic.Chat.LastSeenWindow
import Cubic.World.Float
import Cubic.Interaction.Tracker
import Cubic.Interaction.View
import Cubic.Interaction.Overlaid
import Cubic.Interaction.Digging
import Cubic.Interaction.Rollback
import Cubic.World.EntityStore
import Cubic.World.EntityArena
import Cubic.Render.Mailbox
import Cubic.Render.Coalescing
import Cubic.Render.Mesher
import Cubic.World.Chunk
import Cubic.World.Model
import Cubic.World.State
import Cubic.World.BlockUpdates
import Cubic.World.BlockStore
import Cubic.World.Atomicity
import Cubic.World.Reachable
import Cubic.World.BlockReads
import Cubic.World.BlockTable
import Cubic.World.ChunkAdapter
import Cubic.World.EveryChunk
import Cubic.World.BlockEntities
import Cubic.Lib.Query
import Cubic.Lib.Rank
import Cubic.Render.Sampling
import Cubic.World.LightLookup
import Cubic.World.LightHistory
import Cubic.Render.MeshQueue
import Cubic.Render.Snapshot
import Cubic.Render.Sufficiency
import Cubic.Render.Freshness
import Cubic.Render.MeshSystem
import Cubic.Render.SectionSkip
import Cubic.Control.Journal
import Cubic.Control.Session
import Cubic.Control.Commands
import Cubic.Control.DoubleTap
import Cubic.Control.InventorySession
import Cubic.Control.InventoryHandlers
import Cubic.Control.InventoryTraffic
import Cubic.Version.ShapeData
import Cubic.Movement.Aabb
import Cubic.Movement.CollisionProfile
import Cubic.Movement.Obstacles
import Cubic.Movement.Completeness
import Cubic.Render.CoordinateRange
import Cubic.Schema.Definition
import Cubic.Schema.Validate
import Cubic.Schema.Registry
import Cubic.Schema.Structural
import Cubic.Network.PlaySession
import Cubic.Network.InitialRespawn
import Cubic.Render.JobAccounting
import Cubic.World.Arithmetic
import Cubic.Network.MovementTracker
import Cubic.Network.ServerFrame
import Cubic.Network.ServerMirror
import Cubic.Movement.Collide
import Cubic.Movement.Response
import Cubic.BlockResources.Composite
import Cubic.Render.VariantRandom
import Cubic.Inventory.CreativeDrag
import Cubic.Lib.Shelf
import Cubic.Lib.Cells
import Cubic.Lib.Binary32
import Cubic.BlockResources.Error
import Cubic.BlockResources.Atlas
import Cubic.BlockResources.Packed
import Cubic.Lib.Depth
import Cubic.Schema.ProtoDef
import Cubic.Schema.TypeResolution
import Cubic.BlockResources.Model
import Cubic.BlockResources.Inheritance
import Cubic.BlockResources.Memo
import Cubic.Lib.Ray
import Cubic.Lib.GridWalk
import Cubic.Interaction.Raycast
import Cubic.Interaction.RayBoxes
import Cubic.Interaction.RayTraversal
import Cubic.Interaction.NearestTarget
import Cubic.Lib.Transducer
import Cubic.Network.Transforms
import Cubic.Network.Transport
import Cubic.Codec.Recovery
import Cubic.Schema.RoundTrip
import Cubic.Codec.Extent
import Cubic.Nbt.Extent
import Cubic.Lib.Reverse
import Cubic.ItemWire.Component
import Cubic.ItemWire.Profile
import Cubic.ItemWire.Stack
import Cubic.ItemWire.Extent
import Cubic.ItemWire.Patch
import Cubic.ItemWire.Untrusted
import Cubic.ItemWire.Session
import Cubic.Lib.Pointwise
import Cubic.ItemWire.Recoding
import Cubic.ItemWire.BannerEcho
import Cubic.ItemWire.CreativeEcho
import Cubic.Lib.Rounds
import Cubic.Lib.Responder
import Cubic.Bootstrap.Clientbound
import Cubic.Bootstrap.Serverbound
import Cubic.Bootstrap.PlayPackets
import Cubic.Bootstrap.Registries
import Cubic.Bootstrap.Join
import Cubic.Bootstrap.Reaction
import Cubic.Bootstrap.Phases
import Cubic.Lib.Ends
import Cubic.Schema.ReadsEnd
import Cubic.Play.ChunkEnds
import Cubic.Bootstrap.PanicFree
import Cubic.Bootstrap.Serving
import Cubic.Lib.Script
import Cubic.Bootstrap.Answerable
import Cubic.Codec.StringLimits
import Cubic.Bootstrap.Accepted
