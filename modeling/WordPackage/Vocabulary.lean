/-!
# Vocabulary

The fixed names of the package format: XML namespaces, types of relationships,
content types, and the entries that every word-processing package has.
-/

namespace WordPackage

namespace Namespace

def wordprocessing : String := "http://schemas.openxmlformats.org/wordprocessingml/2006/main"

def officeRelationships : String :=
  "http://schemas.openxmlformats.org/officeDocument/2006/relationships"

def packageRelationships : String := "http://schemas.openxmlformats.org/package/2006/relationships"

def contentTypes : String := "http://schemas.openxmlformats.org/package/2006/content-types"

def coreProperties : String :=
  "http://schemas.openxmlformats.org/package/2006/metadata/core-properties"

def dublinCore : String := "http://purl.org/dc/elements/1.1/"

def dublinCoreTerms : String := "http://purl.org/dc/terms/"

def schemaInstance : String := "http://www.w3.org/2001/XMLSchema-instance"

def extendedProperties : String :=
  "http://schemas.openxmlformats.org/officeDocument/2006/extended-properties"

end Namespace

namespace RelationshipType

def document : String :=
  "http://schemas.openxmlformats.org/officeDocument/2006/relationships/officeDocument"

def coreProperties : String :=
  "http://schemas.openxmlformats.org/package/2006/relationships/metadata/core-properties"

def extendedProperties : String :=
  "http://schemas.openxmlformats.org/officeDocument/2006/relationships/extended-properties"

def styles : String := "http://schemas.openxmlformats.org/officeDocument/2006/relationships/styles"

def webSettings : String :=
  "http://schemas.openxmlformats.org/officeDocument/2006/relationships/webSettings"

def fontTable : String :=
  "http://schemas.openxmlformats.org/officeDocument/2006/relationships/fontTable"

def image : String := "http://schemas.openxmlformats.org/officeDocument/2006/relationships/image"

def font : String := "http://schemas.openxmlformats.org/officeDocument/2006/relationships/font"

def hyperlink : String :=
  "http://schemas.openxmlformats.org/officeDocument/2006/relationships/hyperlink"

def numbering : String :=
  "http://schemas.openxmlformats.org/officeDocument/2006/relationships/numbering"

def settings : String :=
  "http://schemas.openxmlformats.org/officeDocument/2006/relationships/settings"

def footnotes : String :=
  "http://schemas.openxmlformats.org/officeDocument/2006/relationships/footnotes"

def endnotes : String :=
  "http://schemas.openxmlformats.org/officeDocument/2006/relationships/endnotes"

def theme : String := "http://schemas.openxmlformats.org/officeDocument/2006/relationships/theme"

end RelationshipType

namespace ContentType

def document : String :=
  "application/vnd.openxmlformats-officedocument.wordprocessingml.document.main+xml"

def styles : String := "application/vnd.openxmlformats-officedocument.wordprocessingml.styles+xml"

def fontTable : String :=
  "application/vnd.openxmlformats-officedocument.wordprocessingml.fontTable+xml"

def webSettings : String :=
  "application/vnd.openxmlformats-officedocument.wordprocessingml.webSettings+xml"

def coreProperties : String := "application/vnd.openxmlformats-package.core-properties+xml"

def extendedProperties : String :=
  "application/vnd.openxmlformats-officedocument.extended-properties+xml"

def relationships : String := "application/vnd.openxmlformats-package.relationships+xml"

def obfuscatedFont : String := "application/vnd.openxmlformats-officedocument.obfuscatedFont"

def numbering : String :=
  "application/vnd.openxmlformats-officedocument.wordprocessingml.numbering+xml"

def settings : String :=
  "application/vnd.openxmlformats-officedocument.wordprocessingml.settings+xml"

def footnotes : String :=
  "application/vnd.openxmlformats-officedocument.wordprocessingml.footnotes+xml"

def endnotes : String :=
  "application/vnd.openxmlformats-officedocument.wordprocessingml.endnotes+xml"

def theme : String := "application/vnd.openxmlformats-officedocument.theme+xml"

end ContentType

namespace PartName

def contentTypes : String := "[Content_Types].xml"

def packageRelationships : String := "_rels/.rels"

def coreProperties : String := "docProps/core.xml"

def extendedProperties : String := "docProps/app.xml"

def wordDirectory : String := "word/"

def document : String := "word/document.xml"

def styles : String := "word/styles.xml"

def fontTable : String := "word/fontTable.xml"

def webSettings : String := "word/webSettings.xml"

def documentRelationships : String := "word/_rels/document.xml.rels"

def fontTableRelationships : String := "word/_rels/fontTable.xml.rels"

end PartName

end WordPackage
