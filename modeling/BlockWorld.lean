import BlockWorld.Log.Format
import BlockWorld.Main
import BlockWorld.Proofs.Arena
import BlockWorld.Proofs.Grid
import BlockWorld.Proofs.Megachunk
import BlockWorld.Proofs.Ownership
import BlockWorld.Proofs.World.Chunks
import BlockWorld.Proofs.Chunk
import BlockWorld.Proofs.World.SparseGrid
import BlockWorld.Proofs.MegachunkParse
import BlockWorld.Proofs.World.Edits
import BlockWorld.Proofs.World.Placement
import BlockWorld.Proofs.ChunkCodec
import BlockWorld.Proofs.ChunkLoading
import BlockWorld.Proofs.MegachunkCodec
import BlockWorld.Proofs.World.Loading
import BlockWorld.Proofs.World.Checked
import BlockWorld.Proofs.World.Invariant
import BlockWorld.Proofs.Archive
import BlockWorld.Proofs.EntryName
import BlockWorld.Proofs.EntryNameGrammar
import BlockWorld.Proofs.MegachunkHeader
import BlockWorld.Proofs.World.Saving
import BlockWorld.Proofs.World.SaveLoad
import BlockWorld.Proofs.World.Acceptance
import BlockWorld.Proofs.World.Blocks
import BlockWorld.Proofs.Faces
import BlockWorld.Proofs.World.Faces
import BlockWorld.Proofs.World.Pictures
import BlockWorld.Proofs.World.Looking
import BlockWorld.Proofs.World.Unloading
import BlockWorld.Proofs.Terrain.Writes
import BlockWorld.Proofs.World.Generating
import BlockWorld.Proofs.World.Reloading
import BlockWorld.Proofs.Http.Savable
import BlockWorld.Proofs.Http.Effects
import BlockWorld.Proofs.Save.Generations
import BlockWorld.Proofs.Save.Interleaving
import BlockWorld.Proofs.Save.Readers
import BlockWorld.Proofs.Save.ArchiveFile
import BlockWorld.Proofs.World.LateLoading
import BlockWorld.Proofs.Program.Persistence
import BlockWorld.Proofs.Save.Folders
import BlockWorld.Proofs.Save.Disk
import BlockWorld.Proofs.Program.Conversion
import BlockWorld.Proofs.Log.Journal
import BlockWorld.Proofs.Program.Running
import BlockWorld.Proofs.Program.Phases
import BlockWorld.Proofs.Program.Restart
import BlockWorld.Proofs.World.Reports
import BlockWorld.Proofs.World.GenerationOrder
import BlockWorld.Proofs.ArenaRuns
import BlockWorld.Proofs.ArenaContents
import BlockWorld.Proofs.World.Rays
import BlockWorld.Proofs.Terrain.Spawn
import BlockWorld.Proofs.World.Spawning
import BlockWorld.Proofs.World.Columns
import BlockWorld.Proofs.MegachunkPlacing
import BlockWorld.Proofs.MegachunkReading
import BlockWorld.Proofs.MegachunkCanonical
import BlockWorld.Proofs.Space.Rational
import BlockWorld.Proofs.Space.Separation
import BlockWorld.Proofs.Space.Planes
import BlockWorld.Proofs.World.Collisions
import BlockWorld.Proofs.Addresses
import BlockWorld.Proofs.Log.Thresholds
import BlockWorld.Proofs.Number.Ticks
import BlockWorld.Proofs.Save.Copying
import BlockWorld.Proofs.World.Damages
import BlockWorld.Proofs.ChunkLoading
import BlockWorld.Staging
