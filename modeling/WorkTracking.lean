import WorkTracking.Bitmap.Digest
import WorkTracking.Bitmap.Membership
import WorkTracking.Instance.Workspace
import WorkTracking.Ledger.NamedSession
import WorkTracking.MemberSet.Workspace
import WorkTracking.Proofs.Bitmap.Positions
import WorkTracking.Proofs.Vocabulary.Editions
import WorkTracking.Proofs.Vocabulary.Registration
import WorkTracking.Proofs.MemberSet.Membership
import WorkTracking.Proofs.MemberSet.Run
import WorkTracking.Proofs.MemberSet.History
import WorkTracking.Proofs.MemberSet.PlainSets
import WorkTracking.Proofs.MemberSet.Simulation
import WorkTracking.Proofs.Ledger.Listing
import WorkTracking.Proofs.Ledger.Table
import WorkTracking.Proofs.Vocabulary.Race
import WorkTracking.Proofs.Bitmap.Comparison
import WorkTracking.Proofs.MemberSet.Equality
import WorkTracking.Proofs.Instance.BoundedRegistry
import WorkTracking.Proofs.Instance.Snapshots
import WorkTracking.Proofs.MemberSet.Traversal
import WorkTracking.Proofs.MemberSet.Containment
import WorkTracking.Proofs.MemberSet.Fingerprints
import WorkTracking.Proofs.Instance.Roll
import WorkTracking.Proofs.Instance.Promotion
import WorkTracking.Proofs.Ledger.Draining
import WorkTracking.Proofs.MemberSet.Pins
import WorkTracking.Proofs.Vocabulary.Batches
import WorkTracking.Proofs.Identities
import WorkTracking.Proofs.Instance.Indifference
import WorkTracking.Proofs.Ledger.Indifference
import WorkTracking.Proofs.UnitOfWork
import WorkTracking.Proofs.Ledger.Healing
import WorkTracking.Proofs.Instance.Resizing
import WorkTracking.Proofs.Instance.Order
import WorkTracking.Proofs.Instance.Batches
import WorkTracking.Proofs.Bitmap.Shelf
import WorkTracking.Proofs.Vocabulary.Growth
import WorkTracking.Proofs.MemberSet.Growth
import WorkTracking.Proofs.Text.ByteOrder
import WorkTracking.Proofs.Toml.Keys
import WorkTracking.Proofs.Settings
import WorkTracking.Proofs.Bitmap.Machine
import WorkTracking.Proofs.Bitmap.Search
import WorkTracking.Proofs.Bitmap.FiniteSet
