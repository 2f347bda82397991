import EntityQuery.Text.Blank
import EntityQuery.Text.Hidden
import EntityQuery.Text.Letters
import EntityQuery.Text.Digits
import EntityQuery.Text.Quoted
import EntityQuery.Json.Printer
import EntityQuery.Json.Reader
import EntityQuery.Value.Literal
import EntityQuery.Box.Basic
import EntityQuery.Record.Replace
import EntityQuery.Filter.Params
import EntityQuery.Toml.Reader
import EntityQuery.Text.Template
import EntityQuery.Box.Describe
import EntityQuery.Entity.Definition
import EntityQuery.Log.Settings
import EntityQuery.Proofs.Text.Digits
import EntityQuery.Proofs.Text.Fields
import EntityQuery.Proofs.Text.Letters
import EntityQuery.Proofs.Text.Quoted
import EntityQuery.Proofs.Calendar.Civil
import EntityQuery.Proofs.Calendar.Timestamp
import EntityQuery.Proofs.Number.Rounding
import EntityQuery.Proofs.Number.Shortest
import EntityQuery.Proofs.Number.Numeral
import EntityQuery.Proofs.Value.Literal
import EntityQuery.Proofs.Box.Wire
import EntityQuery.Proofs.Filter.Faults
import EntityQuery.Proofs.Filter.Grammar
import EntityQuery.Proofs.Filter.Unambiguous
import EntityQuery.Proofs.Filter.Readable
import EntityQuery.Proofs.Filter.FromJson
import EntityQuery.Proofs.Record.Entries
import EntityQuery.Proofs.Record.Boxing
import EntityQuery.Proofs.Record.Saving
import EntityQuery.Proofs.Record.Property
import EntityQuery.Proofs.Entity.Accepted
import EntityQuery.Proofs.Entity.Boxing
import EntityQuery.Proofs.Entity.Order
import EntityQuery.Proofs.Entity.Lossless
import EntityQuery.Proofs.Filter.Steps
import EntityQuery.Proofs.Filter.Calls
import EntityQuery.Proofs.Filter.Params
import EntityQuery.Proofs.Json.Equality
import EntityQuery.Proofs.Box.Equality
import EntityQuery.Proofs.Value.Integers
import EntityQuery.Proofs.Number.Scaling
import EntityQuery.Proofs.Local.Cutting
import EntityQuery.Proofs.Local.Rounding
import EntityQuery.Proofs.Local.Writing
import EntityQuery.Proofs.Local.Number
import EntityQuery.Proofs.Box.Display
import EntityQuery.Proofs.Calendar.Zone
import EntityQuery.Proofs.Local.Date
import EntityQuery.Proofs.Number.Coerce
import EntityQuery.Proofs.Value.Canonical
import EntityQuery.Proofs.Filter.Transparent
import EntityQuery.Proofs.Filter.Frame
import EntityQuery.Proofs.Filter.Integers
import EntityQuery.Proofs.Local.Accepted
import EntityQuery.Proofs.Calendar.Stamp
import EntityQuery.Proofs.Entity.Checking
import EntityQuery.Proofs.Value.DateLiteral
import EntityQuery.Proofs.Record.LookupText
import EntityQuery.Proofs.Box.Merging
import EntityQuery.Proofs.Number.Accepted
import EntityQuery.Proofs.Entity.Expanding
import EntityQuery.Proofs.Filter.Pairs
import EntityQuery.Proofs.Text.Template
import EntityQuery.Proofs.Box.Wrapped
