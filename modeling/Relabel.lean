import Relabel.Command.Arguments
import Relabel.Command.Help
import Relabel.Command.Program
import Relabel.Command.Tables
import Relabel.Digest.Sha256
import Relabel.Document.Json
import Relabel.Document.Read
import Relabel.Document.Write
import Relabel.Encoding.Label
import Relabel.Encoding.SingleByte
import Relabel.Encoding.Utf16
import Relabel.Encoding.Utf8
import Relabel.Environment.File
import Relabel.Environment.Setting
import Relabel.Environment.Variables
import Relabel.Files.Disk
import Relabel.Files.Error
import Relabel.Files.FileSystem
import Relabel.Files.Path
import Relabel.Main
import Relabel.Naming.Generate
import Relabel.Naming.Renaming
import Relabel.Naming.Unused
import Relabel.OrderedMap
import Relabel.Proofs.Container.Lookup
import Relabel.Proofs.Document.Faithful
import Relabel.Proofs.Document.JsonReader
import Relabel.Proofs.Document.Mapping
import Relabel.Proofs.Encoding.Forms
import Relabel.Proofs.Encoding.Utf16
import Relabel.Proofs.Encoding.Utf8
import Relabel.Proofs.Files.Below
import Relabel.Proofs.Files.Disk
import Relabel.Proofs.Files.Paths
import Relabel.Proofs.Files.Reached
import Relabel.Proofs.Markup.Captures
import Relabel.Proofs.Markup.Joint
import Relabel.Proofs.Markup.Marking
import Relabel.Proofs.Markup.Refill
import Relabel.Proofs.Markup.Script
import Relabel.Proofs.Markup.Separable
import Relabel.Proofs.Markup.Site
import Relabel.Proofs.Markup.Sound
import Relabel.Proofs.Markup.UrlSite
import Relabel.Proofs.Naming.Assigned
import Relabel.Proofs.Naming.Fresh
import Relabel.Proofs.Naming.Inverse
import Relabel.Proofs.Naming.Numbering
import Relabel.Proofs.Run.Absent
import Relabel.Proofs.Run.Chain
import Relabel.Proofs.Run.Copies
import Relabel.Proofs.Run.Dangling
import Relabel.Proofs.Run.Idempotent
import Relabel.Proofs.Run.Intact
import Relabel.Proofs.Run.Kept
import Relabel.Proofs.Run.Lossless
import Relabel.Proofs.Run.Names
import Relabel.Proofs.Run.Output
import Relabel.Proofs.Run.References
import Relabel.Proofs.Run.Rejected
import Relabel.Proofs.Run.Selectable
import Relabel.Proofs.Run.Tokens
import Relabel.Proofs.Scan.AttributeChange
import Relabel.Proofs.Scan.AttributeGrammar
import Relabel.Proofs.Scan.AttributeNames
import Relabel.Proofs.Scan.Cut
import Relabel.Proofs.Scan.ElementChange
import Relabel.Proofs.Scan.ElementReplaced
import Relabel.Proofs.Scan.Outside
import Relabel.Proofs.Scan.Placed
import Relabel.Proofs.Scan.Reading
import Relabel.Proofs.Scan.ReferenceNeighbours
import Relabel.Proofs.Scan.Segments
import Relabel.Proofs.Scan.TagNames
import Relabel.Proofs.Scan.Taken
import Relabel.Proofs.Scan.UrlChange
import Relabel.Proofs.Script.Accounted
import Relabel.Proofs.Script.Attempts
import Relabel.Proofs.Script.Confined
import Relabel.Proofs.Script.Equivalent
import Relabel.Proofs.Script.HandedOut
import Relabel.Proofs.Script.NameLengths
import Relabel.Proofs.Script.Names
import Relabel.Proofs.Script.Redirected
import Relabel.Proofs.Script.Sources
import Relabel.Proofs.Script.Stored
import Relabel.Proofs.Script.Surroundings
import Relabel.Proofs.Script.Unhindered
import Relabel.Proofs.Substitution.Document
import Relabel.Proofs.Substitution.InFull
import Relabel.Proofs.Substitution.Lasting
import Relabel.Proofs.Substitution.Occurrences
import Relabel.Proofs.Substitution.OneName
import Relabel.Proofs.Substitution.Pointwise
import Relabel.Proofs.Substitution.ReferencePlaces
import Relabel.Proofs.Substitution.Repeated
import Relabel.Proofs.Substitution.Rescanned
import Relabel.Proofs.Substitution.Respelled
import Relabel.Proofs.Substitution.SelectorGrammar
import Relabel.Proofs.Substitution.SelectorPlaces
import Relabel.Proofs.Substitution.Selectors
import Relabel.Proofs.Substitution.Simultaneous
import Relabel.Proofs.Substitution.Stylesheet
import Relabel.Proofs.Substitution.UrlPass
import Relabel.Proofs.Substitution.UrlSelected
import Relabel.Proofs.Substitution.Values
import Relabel.Proofs.Text.Accepted
import Relabel.Proofs.Text.ByteOrder
import Relabel.Proofs.Text.Interleaved
import Relabel.Proofs.Text.Nested
import Relabel.Proofs.Text.Script
import Relabel.Proofs.Text.WordPlaces
import Relabel.Proofs.Text.WordRanges
import Relabel.Proofs.Text.Words
import Relabel.Proofs.Token.ClosedForm
import Relabel.Proofs.Token.Generated
import Relabel.Proofs.Token.Inventory
import Relabel.Proofs.Token.Verdict
import Relabel.Proofs.Url.Hosts
import Relabel.Proofs.Url.Made
import Relabel.Proofs.Url.Printed
import Relabel.Proofs.Url.Referer
import Relabel.Proofs.Url.Regular
import Relabel.Proofs.Url.Resolution
import Relabel.Run.Failure
import Relabel.Run.Log
import Relabel.Run.Options
import Relabel.Run.Process
import Relabel.Scan.Attribute
import Relabel.Scan.Basic
import Relabel.Scan.Element
import Relabel.Scan.Read
import Relabel.Scan.Selector
import Relabel.Scan.Url
import Relabel.Script.FileName
import Relabel.Script.Relocate
import Relabel.Script.Session
import Relabel.Substitution.Markup
import Relabel.Substitution.Stylesheet
import Relabel.Text.Alphanumeric
import Relabel.Text.Basic
import Relabel.Text.Blank
import Relabel.Text.Edit
import Relabel.Text.LowerCase
import Relabel.Text.Numeral
import Relabel.Text.PlainLetter
import Relabel.Text.Quoted
import Relabel.Text.Ranges
import Relabel.Text.Slice
import Relabel.Text.Terminal
import Relabel.Text.WordChar
import Relabel.Token.Inventory
import Relabel.Token.Kind
import Relabel.Token.Shape
import Relabel.Token.Verdict
import Relabel.Url.Authority
import Relabel.Url.Basic
import Relabel.Url.Direction
import Relabel.Url.Escape
import Relabel.Url.Host
import Relabel.Url.Parse
import Relabel.Url.Punycode
import Relabel.Url.Reference
import Relabel.Url.Segments
