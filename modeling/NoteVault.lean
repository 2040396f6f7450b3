import NoteVault.Debounce
import NoteVault.Main
import NoteVault.Proofs.Bookmarks
import NoteVault.Proofs.Calendar.Format
import NoteVault.Proofs.Calendar.Range
import NoteVault.Proofs.Calendar.Window
import NoteVault.Proofs.Collation.Key
import NoteVault.Proofs.Dashboard
import NoteVault.Proofs.Debounce
import NoteVault.Proofs.Index.Cache
import NoteVault.Proofs.Index.Hiding
import NoteVault.Proofs.Index.Representation
import NoteVault.Proofs.Link.Counts
import NoteVault.Proofs.Link.Reference
import NoteVault.Proofs.Note.Cut
import NoteVault.Proofs.Note.Links
import NoteVault.Proofs.Note.Tags
import NoteVault.Proofs.Query.DateRange
import NoteVault.Proofs.Query.Page
import NoteVault.Proofs.Query.Shorthand
import NoteVault.Proofs.Query.Sort
import NoteVault.Proofs.Query.Words
import NoteVault.Proofs.Service
import NoteVault.Proofs.Snapshot.Entries
import NoteVault.Proofs.Tag.Acceptance
import NoteVault.Proofs.Tag.Inline
import NoteVault.Proofs.Tag.Toggle
import NoteVault.Proofs.Vault.Watch
