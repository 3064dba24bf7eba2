import LineageSearch.Main
import LineageSearch.Proofs.Text.CaseTables
import LineageSearch.Proofs.Text.Words
import LineageSearch.Proofs.Text.CaseFolding
import LineageSearch.Proofs.Query.Matches
import LineageSearch.Proofs.Query.PlainTexts
import LineageSearch.Proofs.Query.Lossless
import LineageSearch.Proofs.Vocabulary.Indexes
import LineageSearch.Proofs.Query.KnownKeywords
import LineageSearch.Proofs.Lineage.CapitalNames
import LineageSearch.Proofs.Listing
import LineageSearch.Proofs.Lineage.Answers
import LineageSearch.Proofs.Lineage.Lookups
import LineageSearch.Proofs.Query.Scan
import LineageSearch.Proofs.Query.WellFormed
import LineageSearch.Proofs.Query.Leftovers
import LineageSearch.Proofs.Query.LeadingKeywords
import LineageSearch.Proofs.Query.BareSubjects
import LineageSearch.Proofs.Text.LostCase
import LineageSearch.Proofs.Lineage.LostNames
import LineageSearch.Proofs.Query.CreditCandidates
import LineageSearch.Proofs.Text.Respaced
import LineageSearch.Proofs.Query.Readings
import LineageSearch.Proofs.Query.Resolvers
import LineageSearch.Proofs.Query.Notes
import LineageSearch.Proofs.Query.Coherence
import LineageSearch.Proofs.Query.NormalQueries
import LineageSearch.Proofs.Query.Spacing
import LineageSearch.Proofs.Query.UnmentionedKeywords
import LineageSearch.Proofs.Query.SurfaceForms
import LineageSearch.Proofs.Lineage.RecordSource
import LineageSearch.Proofs.Lineage.LatestRecords
import LineageSearch.Proofs.Query.DisplayLanguage
import LineageSearch.Proofs.Query.Backtracking
import LineageSearch.Proofs.Query.UsableKeywords
import LineageSearch.Proofs.Query.LoneKeywords
import LineageSearch.Proofs.Query.WholeTexts
import LineageSearch.Proofs.Text.ByteLines
import LineageSearch.Proofs.Json.Scanning
import LineageSearch.Proofs.Json.ReadBack
import LineageSearch.Proofs.Tool.Reports
import LineageSearch.Proofs.Tool.Streams
import LineageSearch.Proofs.Lineage.Years
import LineageSearch.Proofs.Lineage.TaggedPhotos
import LineageSearch.Proofs.Vocabulary.Ambiguities
import LineageSearch.Proofs.Lineage.NameShape
import LineageSearch.Proofs.NamedEntries
import LineageSearch.Proofs.Vocabulary.DerivedLists
import LineageSearch.Proofs.Vocabulary.StrictRegistry
import LineageSearch.Proofs.Settings.Writes
import LineageSearch.Proofs.Settings.NamesOnce
import LineageSearch.Proofs.Settings.TomlTables
import LineageSearch.Proofs.Settings.Overlaid
import LineageSearch.Proofs.Settings.Reading
import LineageSearch.Proofs.Settings.Layers
import LineageSearch.Proofs.Lineage.Insertions
import LineageSearch.Proofs.Lineage.Owners
import LineageSearch.Proofs.Text.SpelledNumbers
import LineageSearch.Proofs.Lineage.IdSpellings
import LineageSearch.Proofs.Vocabulary.FlatLists
