import TypedStore.Json.Embedded
import TypedStore.Proofs.Archive.Numbering
import TypedStore.Proofs.Archive.Provenance
import TypedStore.Proofs.Codec.Domain
import TypedStore.Proofs.Store.Clearing
import TypedStore.Proofs.Store.Listing
import TypedStore.Proofs.Store.Refinement
import TypedStore.Proofs.Store.Shadowing
import TypedStore.Proofs.Archive.Reports
import TypedStore.Proofs.Store.Ledger
import TypedStore.Proofs.Codec.Magnitude
import TypedStore.Proofs.Codec.Sites
import TypedStore.Proofs.Archive.Locality
import TypedStore.Proofs.Store.Deeds
import TypedStore.Proofs.Store.Isolation
import TypedStore.Proofs.Store.Stages
import TypedStore.Proofs.Codec.Flaws
import TypedStore.Proofs.Codec.Repeats
import TypedStore.Proofs.Archive.DataFile
import TypedStore.Proofs.Archive.Verdicts
import TypedStore.Proofs.Store.DefaultsFile
import TypedStore.Proofs.Store.ReadOnly
import TypedStore.Proofs.Store.ValueLength
import TypedStore.Proofs.Locking
import TypedStore.Proofs.Store.KeyAdmission
import TypedStore.Proofs.Config.Lines
import TypedStore.Proofs.Config.SettingsFile
import TypedStore.Proofs.Value.Equality
