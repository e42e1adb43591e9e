/-
**Encodings and their labels.**

Documents name their encoding by one of its labels, in capital or small letters and with white space
around it.

* `LegacyEncodings`: the texts of encodings whose tables are not here, a parameter of all that reads
  documents.
* `Encoding.ofLabel?`: the encoding with a label.
* `Encoding.decode?`: the text of bytes.
* `decodeMarked`: the text of bytes that may begin with a byte order mark.
-/

import Relabel.Encoding.SingleByte
import Relabel.Encoding.Utf16

namespace Relabel

/-- What is known of encodings whose tables are not here. -/
class LegacyEncodings where
  /-- The text of bytes in the encoding with a name, if they are well formed. -/
  decode? : (name : String) → Bytes → Option Text

/-- How characters become bytes. -/
inductive Form where
  | utf8
  | utf16 (order : Utf16.ByteOrder)
  | table (high : SingleByte.Table)
  /-- As tables say that are not here. -/
  | legacy
  deriving DecidableEq, Repr

/-- An encoding with its name and its labels. -/
structure Encoding where
  name : String
  form : Form
  labels : List String
  deriving DecidableEq, Repr

namespace Encoding

/-- The encoding of documents that name none. -/
def utf8 : Encoding :=
  ⟨"UTF-8", .utf8, ["unicode-1-1-utf-8", "unicode11utf8", "unicode20utf8", "utf-8", "utf8",
    "x-unicode20utf8"]⟩

/-- The two encodings in units of two bytes. -/
def utf16 : Utf16.ByteOrder → Encoding
  | .littleEndian =>
    ⟨"UTF-16LE", .utf16 .littleEndian, ["csunicode", "iso-10646-ucs-2", "ucs-2", "unicode",
      "unicodefeff", "utf-16", "utf-16le"]⟩
  | .bigEndian => ⟨"UTF-16BE", .utf16 .bigEndian, ["unicodefffe", "utf-16be"]⟩

open SingleByte in
/-- All encodings with labels. -/
def all : List Encoding :=
  [
    utf8,
    ⟨"IBM866", .legacy, ["866", "cp866", "csibm866", "ibm866"]⟩,
    ⟨"ISO-8859-2", .legacy, ["csisolatin2", "iso-8859-2", "iso-ir-101", "iso8859-2", "iso88592",
      "iso_8859-2", "iso_8859-2:1987", "l2", "latin2"]⟩,
    ⟨"ISO-8859-3", .legacy, ["csisolatin3", "iso-8859-3", "iso-ir-109", "iso8859-3", "iso88593",
      "iso_8859-3", "iso_8859-3:1988", "l3", "latin3"]⟩,
    ⟨"ISO-8859-4", .legacy, ["csisolatin4", "iso-8859-4", "iso-ir-110", "iso8859-4", "iso88594",
      "iso_8859-4", "iso_8859-4:1988", "l4", "latin4"]⟩,
    ⟨"ISO-8859-5", .legacy, ["csisolatincyrillic", "cyrillic", "iso-8859-5", "iso-ir-144",
      "iso8859-5", "iso88595", "iso_8859-5", "iso_8859-5:1988"]⟩,
    ⟨"ISO-8859-6", .legacy, ["arabic", "asmo-708", "csiso88596e", "csiso88596i",
      "csisolatinarabic", "ecma-114", "iso-8859-6", "iso-8859-6-e", "iso-8859-6-i", "iso-ir-127",
      "iso8859-6", "iso88596", "iso_8859-6", "iso_8859-6:1987"]⟩,
    ⟨"ISO-8859-7", (.table greek), ["csisolatingreek", "ecma-118", "elot_928", "greek", "greek8",
      "iso-8859-7", "iso-ir-126", "iso8859-7", "iso88597", "iso_8859-7", "iso_8859-7:1987",
      "sun_eu_greek"]⟩,
    ⟨"ISO-8859-8", .legacy, ["csiso88598e", "csisolatinhebrew", "hebrew", "iso-8859-8",
      "iso-8859-8-e", "iso-ir-138", "iso8859-8", "iso88598", "iso_8859-8", "iso_8859-8:1988",
      "visual"]⟩,
    ⟨"ISO-8859-8-I", .legacy, ["csiso88598i", "iso-8859-8-i", "logical"]⟩,
    ⟨"ISO-8859-10", .legacy, ["csisolatin6", "iso-8859-10", "iso-ir-157", "iso8859-10",
      "iso885910", "l6", "latin6"]⟩,
    ⟨"ISO-8859-13", .legacy, ["iso-8859-13", "iso8859-13", "iso885913"]⟩,
    ⟨"ISO-8859-14", .legacy, ["iso-8859-14", "iso8859-14", "iso885914"]⟩,
    ⟨"ISO-8859-15", (.table latin9), ["csisolatin9", "iso-8859-15", "iso8859-15", "iso885915",
      "iso_8859-15", "l9"]⟩,
    ⟨"ISO-8859-16", .legacy, ["iso-8859-16"]⟩,
    ⟨"KOI8-R", (.table koi8), ["cskoi8r", "koi", "koi8", "koi8-r", "koi8_r"]⟩,
    ⟨"KOI8-U", .legacy, ["koi8-ru", "koi8-u"]⟩,
    ⟨"macintosh", .legacy, ["csmacintosh", "mac", "macintosh", "x-mac-roman"]⟩,
    ⟨"windows-874", .legacy, ["dos-874", "iso-8859-11", "iso8859-11", "iso885911", "tis-620",
      "windows-874"]⟩,
    ⟨"windows-1250", .legacy, ["cp1250", "windows-1250", "x-cp1250"]⟩,
    ⟨"windows-1251", (.table windows1251), ["cp1251", "windows-1251", "x-cp1251"]⟩,
    ⟨"windows-1252", (.table windows1252), ["ansi_x3.4-1968", "ascii", "cp1252", "cp819",
      "csisolatin1", "ibm819", "iso-8859-1", "iso-ir-100", "iso8859-1", "iso88591", "iso_8859-1",
      "iso_8859-1:1987", "l1", "latin1", "us-ascii", "windows-1252", "x-cp1252"]⟩,
    ⟨"windows-1253", .legacy, ["cp1253", "windows-1253", "x-cp1253"]⟩,
    ⟨"windows-1254", .legacy, ["cp1254", "csisolatin5", "iso-8859-9", "iso-ir-148", "iso8859-9",
      "iso88599", "iso_8859-9", "iso_8859-9:1989", "l5", "latin5", "windows-1254", "x-cp1254"]⟩,
    ⟨"windows-1255", .legacy, ["cp1255", "windows-1255", "x-cp1255"]⟩,
    ⟨"windows-1256", .legacy, ["cp1256", "windows-1256", "x-cp1256"]⟩,
    ⟨"windows-1257", .legacy, ["cp1257", "windows-1257", "x-cp1257"]⟩,
    ⟨"windows-1258", .legacy, ["cp1258", "windows-1258", "x-cp1258"]⟩,
    ⟨"x-mac-cyrillic", .legacy, ["x-mac-cyrillic", "x-mac-ukrainian"]⟩,
    ⟨"GBK", .legacy, ["chinese", "csgb2312", "csiso58gb231280", "gb2312", "gb_2312", "gb_2312-80",
      "gbk", "iso-ir-58", "x-gbk"]⟩,
    ⟨"gb18030", .legacy, ["gb18030"]⟩,
    ⟨"Big5", .legacy, ["big5", "big5-hkscs", "cn-big5", "csbig5", "x-x-big5"]⟩,
    ⟨"EUC-JP", .legacy, ["cseucpkdfmtjapanese", "euc-jp", "x-euc-jp"]⟩,
    ⟨"ISO-2022-JP", .legacy, ["csiso2022jp", "iso-2022-jp"]⟩,
    ⟨"Shift_JIS", .legacy, ["csshiftjis", "ms932", "ms_kanji", "shift-jis", "shift_jis", "sjis",
      "windows-31j", "x-sjis"]⟩,
    ⟨"EUC-KR", .legacy, ["cseuckr", "csksc56011987", "euc-kr", "iso-ir-149", "korean",
      "ks_c_5601-1987", "ks_c_5601-1989", "ksc5601", "ksc_5601", "windows-949"]⟩,
    utf16 .bigEndian,
    utf16 .littleEndian,
    ⟨"x-user-defined", (.table privateUse), ["x-user-defined"]⟩
  ]

/-- Whether a character may stand around a label. -/
def isLabelBlank (c : Char) : Bool :=
  c == ' ' || c == '\t' || c == '\n' || c == '\x0c' || c == '\r'

/-- The encoding with a label. -/
def ofLabel? (label : Text) : Option Encoding :=
  let label := String.ofList ((Text.trim isLabelBlank label).map Char.toLower)
  all.find? fun encoding => encoding.labels.contains label

/-- The text of bytes in an encoding, if they are well formed. -/
def decode? [LegacyEncodings] (encoding : Encoding) (bytes : Bytes) : Option Text :=
  match encoding.form with
  | .utf8 => Utf8.decode? bytes
  | .utf16 order => Utf16.decode? order bytes
  | .table high => SingleByte.decode? high bytes
  | .legacy => LegacyEncodings.decode? encoding.name bytes

end Encoding

/-! ### Byte order marks -/

/-- The encoding that a byte order mark announces, and the bytes behind the mark. -/
def cutMark? : Bytes → Option (Encoding × Bytes)
  | 0xEF :: 0xBB :: 0xBF :: rest => some (.utf8, rest)
  | 0xFF :: 0xFE :: rest => some (.utf16 .littleEndian, rest)
  | 0xFE :: 0xFF :: rest => some (.utf16 .bigEndian, rest)
  | _ => none

/-- The encoding of bytes that are said to be in a given one, and their text. A byte order mark says
more, and is not part of the text. -/
def decodeMarked [LegacyEncodings] (encoding : Encoding) (bytes : Bytes) : Encoding × Option Text :=
  let (encoding, bytes) := (cutMark? bytes).getD (encoding, bytes)
  (encoding, encoding.decode? bytes)

end Relabel
