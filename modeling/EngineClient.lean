import EngineClient.Cancellation
import EngineClient.CommandLine
import EngineClient.Loader.EchoImage
import EngineClient.Main
import EngineClient.Proofs.Batch.Agreement
import EngineClient.Proofs.Batch.Layout
import EngineClient.Proofs.Bucket.KeyPath
import EngineClient.Proofs.Bucket.Received
import EngineClient.Proofs.Bucket.Rendering
import EngineClient.Proofs.CommandLine.Multiget
import EngineClient.Proofs.Config.Choices
import EngineClient.Proofs.Handle.Buffers
import EngineClient.Proofs.Handle.Sessions
import EngineClient.Proofs.Handle.Token
import EngineClient.Proofs.Provisioner.Idempotence
import EngineClient.Proofs.Repository.Mirror
import EngineClient.Proofs.Settings.RoundTrip
import EngineClient.Proofs.Slot.Faults
import EngineClient.Proofs.Store.ChunkSize
import EngineClient.Proofs.Store.Confined
import EngineClient.Proofs.Store.Crash
import EngineClient.Proofs.Store.Interleaving
import EngineClient.Proofs.Store.Reads
import EngineClient.Proofs.Version.Highest
import EngineClient.Proofs.Version.RoundTrip
