import WordPackage.Archive.Bytes
import WordPackage.Archive.Checksum
import WordPackage.Archive.Deflate.Bits
import WordPackage.Archive.Deflate.Code
import WordPackage.Archive.Deflate.Expansion
import WordPackage.Archive.Directory
import WordPackage.Archive.Entry
import WordPackage.Archive.Fault
import WordPackage.Archive.Header
import WordPackage.Archive.Number
import WordPackage.Archive.Opened
import WordPackage.Assignments
import WordPackage.Calendar
import WordPackage.ContentType.Declarations
import WordPackage.ContentType.Manifest
import WordPackage.ContentType.Mime
import WordPackage.Disk
import WordPackage.Draft.Basic
import WordPackage.Draft.Parts
import WordPackage.Draft.Writing
import WordPackage.Failure
import WordPackage.Integrity
import WordPackage.Json.Decoder
import WordPackage.Json.Lexeme
import WordPackage.Json.Magnitude
import WordPackage.Json.Record
import WordPackage.Json.Skipped
import WordPackage.Json.Value
import WordPackage.Language.Basic
import WordPackage.Language.Table
import WordPackage.Markup.Attribute
import WordPackage.Markup.Element
import WordPackage.Markup.Event
import WordPackage.Markup.Fault
import WordPackage.Markup.Layout
import WordPackage.Metadata.Authors
import WordPackage.Metadata.Properties
import WordPackage.Metadata.PropertyWriter
import WordPackage.Metadata.Record
import WordPackage.Metadata.TagSet
import WordPackage.Package
import WordPackage.Part
import WordPackage.Proofs.Assignments
import WordPackage.Proofs.ContentType.Declarations
import WordPackage.Proofs.ContentType.Manifest
import WordPackage.Proofs.ContentType.ReadBack
import WordPackage.Proofs.Draft.Archive
import WordPackage.Proofs.Draft.Closure
import WordPackage.Proofs.Draft.Consistency
import WordPackage.Proofs.Draft.Integrity
import WordPackage.Proofs.Draft.Run
import WordPackage.Proofs.Draft.Writing
import WordPackage.Proofs.Integrity
import WordPackage.Proofs.Markup.Escaping
import WordPackage.Proofs.Markup.WrittenDocument
import WordPackage.Proofs.Markup.WrittenTag
import WordPackage.Proofs.Package
import WordPackage.Proofs.Archive.Layout
import WordPackage.Proofs.Archive.Deflate
import WordPackage.Proofs.Archive.RoundTrip
import WordPackage.Proofs.Relationship.Registry
import WordPackage.Proofs.Relationship.RoundTrip
import WordPackage.Proofs.Resource.Store
import WordPackage.Proofs.Resource.Target
import WordPackage.Relationship.Part
import WordPackage.Relationship.Registry
import WordPackage.Resource.Source
import WordPackage.Resource.Store
import WordPackage.Resource.Target
import WordPackage.Settings
import WordPackage.Storage.Fault
import WordPackage.Storage.Tree
import WordPackage.Text.Blank
import WordPackage.Text.Digits
import WordPackage.Text.Encoding
import WordPackage.Text.Quoted
import WordPackage.Text.Segments
import WordPackage.Text.Unprintable
import WordPackage.Text.Width
import WordPackage.Vocabulary
import WordPackage.Proofs.Relationship.Table
import WordPackage.Proofs.Integrity.Report
import WordPackage.Proofs.Draft.RelationshipParts
import WordPackage.Proofs.Draft.Built
import WordPackage.Proofs.Markup.Declaration
import WordPackage.Proofs.Draft.Declared
import WordPackage.Proofs.Draft.ContentTypes
import WordPackage.Proofs.Markup.Name
import WordPackage.Proofs.Markup.Tree
import WordPackage.Proofs.Markup.WellFormed
import WordPackage.Proofs.Metadata.WellFormed
import WordPackage.Proofs.ContentType.Order
import WordPackage.Proofs.Draft.Events
import WordPackage.Proofs.Draft.Numbering
import WordPackage.Proofs.Draft.Registration
import WordPackage.Proofs.ContentType.Requests
import WordPackage.Proofs.ContentType.Resolution
import WordPackage.Proofs.Text.Segments
import WordPackage.Proofs.Metadata.Properties
import WordPackage.Proofs.Metadata.TagSet
import WordPackage.Proofs.Metadata.Update
import WordPackage.Proofs.Text.Marks
import WordPackage.Proofs.Metadata.Authors
import WordPackage.Proofs.Json.Layout
import WordPackage.Proofs.Json.Lexeme
import WordPackage.Proofs.Json.Number
import WordPackage.Proofs.Json.Skipped
import WordPackage.Proofs.Json.Decoder
import WordPackage.Proofs.Json.Record
import WordPackage.Proofs.Metadata.Record
import WordPackage.Proofs.Disk
import WordPackage.Proofs.Calendar.Days
import WordPackage.Proofs.Text.Digits
import WordPackage.Proofs.Calendar.Instant
import WordPackage.Proofs.Text.Blank
import WordPackage.Proofs.Language.Table
import WordPackage.Proofs.Language.SmallForm
import WordPackage.Proofs.Text.Pieces
import WordPackage.Proofs.Integrity.SourceDirectory
import WordPackage.Proofs.Markup.Cut
import WordPackage.Proofs.Relationship.Cut
import WordPackage.Proofs.Integrity.NormalName
import WordPackage.Proofs.Metadata.Assigned
import WordPackage.Proofs.Json.Scanned
import WordPackage.Proofs.Json.Passed
import WordPackage.Proofs.Json.Shape
import WordPackage.Proofs.Json.RecordText
import WordPackage.Proofs.Settings.File
import WordPackage.Proofs.Resource.Insertions
