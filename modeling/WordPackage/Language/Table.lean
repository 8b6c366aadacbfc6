import WordPackage.Language.Basic
import WordPackage.Text.Blank

/-!
# The table of languages

The languages known by their codes in ISO 639 and by their English names. A tag
is compared in small letters: as a whole first, so that names with blanks are
found, then by what stands before its first hyphen or underscore.
-/

namespace WordPackage

/-- A known language. -/
structure Language where
  twoLetter : Option String
  /-- The canonical code: that of ISO 639-2 for terminology, or of ISO 639-3. -/
  code : String
  /-- The code of ISO 639-2 for bibliography, where it differs. -/
  bibliographic : Option String
  name : String
  deriving DecidableEq, Repr

namespace Language

/-- The known languages. -/
def table : List Language := [
  ⟨some "af", "afr", none, "afrikaans"⟩,
  ⟨some "am", "amh", none, "amharic"⟩,
  ⟨some "ar", "ara", none, "arabic"⟩,
  ⟨some "az", "aze", none, "azerbaijani"⟩,
  ⟨some "be", "bel", none, "belarusian"⟩,
  ⟨some "bg", "bul", none, "bulgarian"⟩,
  ⟨some "bn", "ben", none, "bengali"⟩,
  ⟨some "bs", "bos", none, "bosnian"⟩,
  ⟨some "ca", "cat", none, "catalan"⟩,
  ⟨some "cs", "ces", some "cze", "czech"⟩,
  ⟨some "cy", "cym", some "wel", "welsh"⟩,
  ⟨some "da", "dan", none, "danish"⟩,
  ⟨some "de", "deu", some "ger", "german"⟩,
  ⟨some "el", "ell", some "gre", "greek"⟩,
  ⟨some "en", "eng", none, "english"⟩,
  ⟨some "eo", "epo", none, "esperanto"⟩,
  ⟨some "es", "spa", none, "spanish"⟩,
  ⟨some "et", "est", none, "estonian"⟩,
  ⟨some "eu", "eus", some "baq", "basque"⟩,
  ⟨some "fa", "fas", some "per", "persian"⟩,
  ⟨some "fi", "fin", none, "finnish"⟩,
  ⟨some "fr", "fra", some "fre", "french"⟩,
  ⟨some "ga", "gle", none, "irish"⟩,
  ⟨some "gl", "glg", none, "galician"⟩,
  ⟨some "gu", "guj", none, "gujarati"⟩,
  ⟨some "he", "heb", none, "hebrew"⟩,
  ⟨some "hi", "hin", none, "hindi"⟩,
  ⟨some "hr", "hrv", none, "croatian"⟩,
  ⟨some "hu", "hun", none, "hungarian"⟩,
  ⟨some "hy", "hye", some "arm", "armenian"⟩,
  ⟨some "id", "ind", none, "indonesian"⟩,
  ⟨some "is", "isl", some "ice", "icelandic"⟩,
  ⟨some "it", "ita", none, "italian"⟩,
  ⟨some "ja", "jpn", none, "japanese"⟩,
  ⟨some "ka", "kat", some "geo", "georgian"⟩,
  ⟨some "kk", "kaz", none, "kazakh"⟩,
  ⟨some "km", "khm", none, "khmer"⟩,
  ⟨some "kn", "kan", none, "kannada"⟩,
  ⟨some "ko", "kor", none, "korean"⟩,
  ⟨some "la", "lat", none, "latin"⟩,
  ⟨some "lo", "lao", none, "lao"⟩,
  ⟨some "lt", "lit", none, "lithuanian"⟩,
  ⟨some "lv", "lav", none, "latvian"⟩,
  ⟨some "mk", "mkd", some "mac", "macedonian"⟩,
  ⟨some "ml", "mal", none, "malayalam"⟩,
  ⟨some "mn", "mon", none, "mongolian"⟩,
  ⟨some "mr", "mar", none, "marathi"⟩,
  ⟨some "ms", "msa", some "may", "malay"⟩,
  ⟨some "my", "mya", some "bur", "burmese"⟩,
  ⟨some "nb", "nob", none, "norwegian bokmal"⟩,
  ⟨some "ne", "nep", none, "nepali"⟩,
  ⟨some "nl", "nld", some "dut", "dutch"⟩,
  ⟨some "nn", "nno", none, "norwegian nynorsk"⟩,
  ⟨some "no", "nor", none, "norwegian"⟩,
  ⟨some "pa", "pan", none, "punjabi"⟩,
  ⟨some "pl", "pol", none, "polish"⟩,
  ⟨some "pt", "por", none, "portuguese"⟩,
  ⟨some "ro", "ron", some "rum", "romanian"⟩,
  ⟨some "ru", "rus", none, "russian"⟩,
  ⟨some "si", "sin", none, "sinhala"⟩,
  ⟨some "sk", "slk", some "slo", "slovak"⟩,
  ⟨some "sl", "slv", none, "slovenian"⟩,
  ⟨some "sq", "sqi", some "alb", "albanian"⟩,
  ⟨some "sr", "srp", none, "serbian"⟩,
  ⟨some "sv", "swe", none, "swedish"⟩,
  ⟨some "sw", "swa", none, "swahili"⟩,
  ⟨some "ta", "tam", none, "tamil"⟩,
  ⟨some "te", "tel", none, "telugu"⟩,
  ⟨some "th", "tha", none, "thai"⟩,
  ⟨some "tl", "tgl", none, "tagalog"⟩,
  ⟨some "tr", "tur", none, "turkish"⟩,
  ⟨some "uk", "ukr", none, "ukrainian"⟩,
  ⟨some "ur", "urd", none, "urdu"⟩,
  ⟨some "uz", "uzb", none, "uzbek"⟩,
  ⟨some "vi", "vie", none, "vietnamese"⟩,
  ⟨some "xh", "xho", none, "xhosa"⟩,
  ⟨some "yo", "yor", none, "yoruba"⟩,
  ⟨some "zh", "zho", some "chi", "chinese"⟩,
  ⟨some "zu", "zul", none, "zulu"⟩,
  ⟨none, "grc", none, "ancient greek"⟩,
  ⟨none, "ang", none, "old english"⟩,
  ⟨none, "enm", none, "middle english"⟩,
  ⟨none, "fro", none, "old french"⟩,
  ⟨none, "yue", none, "cantonese"⟩]

/-- Whether a key is one of the codes of a language or its name. -/
def hasKey (language : Language) (key : String) : Bool :=
  language.code = key || language.twoLetter = some key
    || language.bibliographic = some key || language.name = key

def find? (key : String) : Option Language :=
  table.find? fun language => language.hasKey key

/-- A character of a tag in small letters. The keys of the table are ASCII, and only
the ASCII capitals and the Kelvin sign have a small form within ASCII. Any other
character has a character outside ASCII in its small form and matches no key. -/
def lowerChar (char : Char) : Char :=
  if char = '\u212A' then 'k' else char.toLower

/-- A tag in small letters. -/
def lower (tag : String) : String :=
  .ofList (tag.toList.map lowerChar)

/-- A tag as it is compared: trimmed, in small letters, with hyphens. -/
def normalize (tag : String) : String :=
  .ofList ((Text.trimBlanks tag.toList).map fun char =>
    if char = '_' then '-' else lowerChar char)

/-- What stands before the first hyphen of a normalized tag. -/
def primary (tag : String) : String :=
  .ofList (tag.toList.takeWhile (· != '-'))

/-- The canonical code of a tag. -/
def canonicalize (tag : String) : Option String :=
  let normalized := normalize tag
  if normalized = "" then none
  else ((find? normalized).or (find? (primary normalized))).map code

/-- The code of two letters for a code or name, which is not trimmed. -/
def twoLetterCode (key : String) : Option String :=
  (find? (lower key)).bind twoLetter

/-- Recognition of tags by the table. -/
def canonicalizer : LanguageCanonicalizer where
  canonicalize := canonicalize
  twoLetterCode := twoLetterCode

end Language

end WordPackage
