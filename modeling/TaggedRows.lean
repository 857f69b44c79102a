import TaggedRows.Main
import TaggedRows.Proofs.Accessor.Contract
import TaggedRows.Proofs.Accessor.Printing
import TaggedRows.Proofs.Configuration.Atomicity
import TaggedRows.Proofs.Configuration.Destination
import TaggedRows.Proofs.DeriveCheck.Agreement
import TaggedRows.Proofs.GeneratedUnit.Formatting
import TaggedRows.Proofs.RowMapping.Description
import TaggedRows.Proofs.SourceSet.Loading
import TaggedRows.Proofs.SourceSet.Prefixes
import TaggedRows.Proofs.Store.Audit
import TaggedRows.Proofs.Store.Finding
import TaggedRows.Proofs.Store.ManyRows
import TaggedRows.Proofs.Store.Retrieval
import TaggedRows.Proofs.Store.Scanning
import TaggedRows.Proofs.Store.Soundness
import TaggedRows.Proofs.Tag.Bytes
import TaggedRows.Proofs.Tag.Decoding
import TaggedRows.Proofs.Tag.Edits
import TaggedRows.Proofs.Tag.Joining
import TaggedRows.Proofs.Tag.Spelling
import TaggedRows.Sample
import TaggedRows.Store.Session
