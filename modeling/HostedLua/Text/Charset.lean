import HostedLua.Text.Utf8

/-! Character sets for byte strings. Reading never fails: `decodeEscaped` gives an undecodable byte as
its escape, and `encodeEscaped` writes escapes back as the bytes they stand for, so that writing after
reading restores every byte string. -/

namespace HostedLua

inductive Charset where
  | utf8 | ascii | latin1 | cp1252
  deriving DecidableEq, Repr

namespace Charset

/-- The code points of the bytes 0x80 to 0x9F in code page 1252, zero where undefined. -/
def cp1252High : List Nat :=
  [0x20AC, 0, 0x201A, 0x0192, 0x201E, 0x2026, 0x2020, 0x2021, 0x02C6, 0x2030, 0x0160, 0x2039,
   0x0152, 0, 0x017D, 0, 0, 0x2018, 0x2019, 0x201C, 0x201D, 0x2022, 0x2013, 0x2014, 0x02DC,
   0x2122, 0x0161, 0x203A, 0x0153, 0, 0x017E, 0x0178]

/-- The code point of a byte in a single-byte set; UTF-8 agrees on ASCII. -/
def char? (cs : Charset) (b : UInt8) : Option CodePoint :=
  if b < 0x80 then some (.ofNat b.toNat)
  else match cs with
    | .utf8 | .ascii => none
    | .latin1 => some (.ofNat b.toNat)
    | .cp1252 =>
      if b < 0xA0 then
        match cp1252High.getD (b.toNat - 0x80) 0 with
        | 0 => none
        | n => some (.ofNat n)
      else some (.ofNat b.toNat)

def bytes? (cs : Charset) (c : CodePoint) : Option Bytes :=
  match cs with
  | .utf8 => if c.isSurrogate then none else some (Utf8.unit c)
  | .ascii => if c.val < 0x80 then some [.ofNat c.val] else none
  | .latin1 => if c.val < 0x100 then some [.ofNat c.val] else none
  | .cp1252 =>
    if c.val < 0x80 || (0xA0 ≤ c.val && c.val < 0x100) then some [.ofNat c.val]
    else match cp1252High.idxOf? c.val with
      | some i => if c.val = 0 then none else some [.ofNat (0x80 + i)]
      | none => none

def decode? (cs : Charset) (bs : Bytes) : Option Text :=
  match cs with
  | .utf8 => Utf8.decode? bs
  | cs => bs.mapM cs.char?

/-- Text of any bytes, each undecodable byte as its escape. -/
def decodeEscaped (cs : Charset) (bs : Bytes) : Text :=
  match cs with
  | .utf8 => Utf8.decodeEscaped bs
  | cs => bs.map fun b => (cs.char? b).getD (Utf8.escape b)

/-- The name that encoding failures give the set. -/
def label : Charset → Text
  | .utf8 => "utf-8"
  | .ascii => "ascii"
  | .latin1 => "latin-1"
  | .cp1252 => "charmap"

/-- Why a set refuses a code point. -/
def refusal : Charset → Text
  | .utf8 => "surrogates not allowed"
  | .ascii => "ordinal not in range(128)"
  | .latin1 => "ordinal not in range(256)"
  | .cp1252 => "character maps to <undefined>"

/-- The registered name of the set. -/
def canonicalName : Charset → Text
  | .utf8 => "utf-8"
  | .ascii => "ascii"
  | .latin1 => "iso8859-1"
  | .cp1252 => "cp1252"

end Charset

/-- A run of code points, from `start` to before `stop`, that a set cannot write. -/
structure EncodeError where
  charset : Charset
  start : Nat
  stop : Nat
  char : CodePoint
  deriving DecidableEq, Repr

/-- A code point in escape notation of the least width. -/
def CodePoint.escapeNotation (c : CodePoint) : Text :=
  if c.val < 0x100 then "\\x" ++ Text.hexPadded 2 c.val
  else if c.val < 0x10000 then "\\u" ++ Text.hexPadded 4 c.val
  else "\\U" ++ Text.hexPadded 8 c.val

def EncodeError.message (e : EncodeError) : Text :=
  let where_ : Text :=
    if e.stop = e.start + 1 then
      "character '" ++ e.char.escapeNotation ++ "' in position " ++ Text.ofNat e.start
    else "characters in position " ++ Text.ofNat e.start ++ "-" ++ Text.ofNat (e.stop - 1)
  "'" ++ e.charset.label ++ "' codec can't encode " ++ where_ ++ ": " ++ e.charset.refusal

namespace Charset

/-- Bytes of the text from position `pos` on, where `held` escapes come just before. A failure covers
the whole run of unwritable code points that follow; code page 1252 also counts the escapes before
the offending one. -/
def encodeFrom (cs : Charset) (pos : Nat) (held : List CodePoint) : Text → Except EncodeError Bytes
  | [] => .ok []
  | c :: rest =>
    match cs.bytes? c with
    | some bs => do return bs ++ (← encodeFrom cs (pos + 1) [] rest)
    | none =>
      match Utf8.escaped? c with
      | some b => do return b :: (← encodeFrom cs (pos + 1) (held ++ [c]) rest)
      | none =>
        let stop := pos + 1 + (rest.takeWhile fun d => (cs.bytes? d).isNone).length
        match cs with
        | .cp1252 => .error ⟨cs, pos - held.length, stop, held.headD c⟩
        | _ => .error ⟨cs, pos, stop, c⟩

/-- Bytes of the text, escapes as the bytes they stand for. -/
def encodeEscaped (cs : Charset) (t : Text) : Except EncodeError Bytes := cs.encodeFrom 0 [] t

/-- A set's name without its spelling: runs of other characters than letters, digits and points
become one underscore, which is dropped at both ends, and letters are in lower case. -/
def normalName (name : Text) : Text :=
  let rec go (gap started : Bool) : Text → Text
    | [] => []
    | c :: rest =>
      if c.isLetter || c.isDigit || c = '.' then
        (if gap && started then [CodePoint.ofChar '_'] else []) ++ c.lower :: go false true rest
      else go true started rest
  go false false name

/-- The normal names of the four sets. -/
def names : Charset → List String
  | .utf8 => ["utf_8", "u8", "utf", "utf8", "utf8_ucs2", "utf8_ucs4", "cp65001"]
  | .ascii => ["ascii", "646", "ansi_x3.4_1968", "ansi_x3_4_1968", "ansi_x3.4_1986", "cp367",
      "csascii", "ibm367", "iso646_us", "iso_646.irv_1991", "iso_ir_6", "us", "us_ascii"]
  | .latin1 => ["latin_1", "8859", "cp819", "csisolatin1", "ibm819", "iso8859", "iso8859_1",
      "iso_8859_1", "iso_8859_1_1987", "iso_ir_100", "l1", "latin", "latin1"]
  | .cp1252 => ["cp1252", "1252", "windows_1252"]

/-- The normal names of the registered sets that this library does not read or write. -/
def foreignNames : List String :=
  ["037 1026 1125 1140 1250 1251 1253 1254 1255 1256 1257 1258 273 424 437 500 775 850 852",
   "855 857 858 860 861 862 863 864 865 866 869 932 936 949 950 arabic asmo_708 base64",
   "base64_codec base_64 big5 big5_hkscs big5_tw big5hkscs bz2 bz2_codec charmap chinese",
   "cp037 cp1006 cp1026 cp1051 cp1125 cp1140 cp1250 cp1251 cp1253 cp1254 cp1255 cp1256",
   "cp1257 cp1258 cp1361 cp154 cp273 cp424 cp437 cp500 cp720 cp737 cp775 cp850 cp852 cp855",
   "cp856 cp857 cp858 cp860 cp861 cp862 cp863 cp864 cp865 cp866 cp866u cp869 cp874 cp875",
   "cp932 cp936 cp949 cp950 cp_gr cp_is cshproman8 csbig5 csibm037 csibm1026 csibm273",
   "csibm424 csibm500 csibm855 csibm857 csibm858 csibm860 csibm861 csibm863 csibm864",
   "csibm865 csibm866 csibm869 csiso2022jp csiso2022kr csiso58gb231280 csisolatin2",
   "csisolatin3 csisolatin4 csisolatin5 csisolatin6 csisolatinarabic csisolatincyrillic",
   "csisolatingreek csisolatinhebrew cskoi8r cspc775baltic cspc850multilingual",
   "cspc862latinhebrew cspc8codepage437 cspcp852 csptcp154 csshiftjis cyrillic",
   "cyrillic_asian ebcdic_cp_be ebcdic_cp_ca ebcdic_cp_ch ebcdic_cp_he ebcdic_cp_nl",
   "ebcdic_cp_us ebcdic_cp_wt ecma_114 ecma_118 elot_928 euc_cn euc_jis2004 euc_jis_2004",
   "euc_jisx0213 euc_jp euc_kr euccn eucgb2312_cn eucjis2004 eucjisx0213 eucjp euckr gb18030",
   "gb18030_2000 gb2312 gb2312_1980 gb2312_80 gbk greek greek8 hebrew hex hex_codec hkscs",
   "hp_roman8 hz hz_gb hz_gb_2312 hzgb ibm037 ibm039 ibm1026 ibm1051 ibm1125 ibm1140 ibm273",
   "ibm424 ibm437 ibm500 ibm775 ibm850 ibm852 ibm855 ibm857 ibm858 ibm860 ibm861 ibm862",
   "ibm863 ibm864 ibm865 ibm866 ibm869 idna iso2022_jp iso2022_jp_1 iso2022_jp_2",
   "iso2022_jp_2004 iso2022_jp_3 iso2022_jp_ext iso2022_kr iso2022jp iso2022jp_1 iso2022jp_2",
   "iso2022jp_2004 iso2022jp_3 iso2022jp_ext iso2022kr iso8859_10 iso8859_11 iso8859_13",
   "iso8859_14 iso8859_15 iso8859_16 iso8859_2 iso8859_3 iso8859_4 iso8859_5 iso8859_6",
   "iso8859_7 iso8859_8 iso8859_9 iso_2022_jp iso_2022_jp_1 iso_2022_jp_2 iso_2022_jp_2004",
   "iso_2022_jp_3 iso_2022_jp_ext iso_2022_kr iso_8859_10 iso_8859_10_1992 iso_8859_11",
   "iso_8859_11_2001 iso_8859_13 iso_8859_14 iso_8859_14_1998 iso_8859_15 iso_8859_16",
   "iso_8859_16_2001 iso_8859_2 iso_8859_2_1987 iso_8859_3 iso_8859_3_1988 iso_8859_4",
   "iso_8859_4_1988 iso_8859_5 iso_8859_5_1988 iso_8859_6 iso_8859_6_1987 iso_8859_7",
   "iso_8859_7_1987 iso_8859_8 iso_8859_8_1988 iso_8859_9 iso_8859_9_1989 iso_celtic",
   "iso_ir_101 iso_ir_109 iso_ir_110 iso_ir_126 iso_ir_127 iso_ir_138 iso_ir_144 iso_ir_148",
   "iso_ir_157 iso_ir_166 iso_ir_199 iso_ir_226 iso_ir_58 jisx0213 johab koi8_r koi8_t",
   "koi8_u korean ks_c_5601 ks_c_5601_1987 ks_x_1001 ksc5601 ksx1001 kz1048 kz_1048 l10 l2",
   "l3 l4 l5 l6 l7 l8 l9 latin10 latin2 latin3 latin4 latin5 latin6 latin7 latin8 latin9",
   "mac_arabic mac_centeuro mac_croatian mac_cyrillic mac_farsi mac_greek mac_iceland",
   "mac_latin2 mac_roman mac_romanian mac_turkish maccentraleurope maccyrillic macgreek",
   "maciceland macintosh maclatin2 macroman macturkish ms1361 ms932 ms936 ms949 ms950",
   "ms_kanji mskanji palmos pt154 ptcp154 punycode quopri quopri_codec quoted_printable",
   "quotedprintable r8 raw_unicode_escape rk1048 roman8 rot13 rot_13 ruscii s_jis s_jis_2004",
   "s_jisx0213 shift_jis shift_jis_2004 shift_jisx0213 shiftjis shiftjis2004 shiftjisx0213",
   "sjis sjis_2004 sjisx0213 strk1048_2002 thai tis620 tis_620 tis_620_0 tis_620_2529_0",
   "tis_620_2529_1 u16 u32 u7 u_jis uhc ujis undefined unicode_1_1_utf_7 unicode_escape",
   "unicodebigunmarked unicodelittleunmarked utf16 utf32 utf7 utf_16 utf_16_be utf_16_le",
   "utf_16be utf_16le utf_32 utf_32_be utf_32_le utf_32be utf_32le utf_7 utf_8_sig uu",
   "uu_codec windows_1250 windows_1251 windows_1253 windows_1254 windows_1255 windows_1256",
   "windows_1257 windows_1258 x_mac_japanese x_mac_korean x_mac_simp_chinese",
   "x_mac_trad_chinese zip zlib zlib_codec"].flatMap (·.splitOn " ")

inductive Entry where
  /-- A set of this library. -/
  | plain (cs : Charset)
  /-- A set of this library behind the prefix that marks escaped reading. -/
  | escaped (cs : Charset) (depth : Nat)
  /-- A registered set that this library does not read or write. -/
  | foreign
  deriving DecidableEq, Repr

def escapedPrefix : Text := "luabridge_"

/-- Looks a normal name up, taking off at most `fuel` prefixes. -/
def lookupNormal (fuel : Nat) (name : Text) : Option Entry :=
  let isOneOf (l : List String) : Bool := l.any fun (s : String) => name == (s : Text)
  if isOneOf (names .utf8) then some (.plain .utf8)
  else if isOneOf (names .ascii) then some (.plain .ascii)
  else if isOneOf (names .latin1) then some (.plain .latin1)
  else if isOneOf (names .cp1252) then some (.plain .cp1252)
  else if isOneOf foreignNames then some .foreign
  else match fuel with
    | 0 => none
    | fuel + 1 =>
      if escapedPrefix.isPrefixOf name then
        match lookupNormal fuel (normalName (name.drop escapedPrefix.length)) with
        | some (.plain cs) => some (.escaped cs 1)
        | some (.escaped cs n) => some (.escaped cs (n + 1))
        | other => other
      else none

def lookup (name : Text) : Option Entry := lookupNormal name.length (normalName name)

/-- The set that text is read and written in under a name. -/
def Entry.charset? : Entry → Option Charset
  | .plain cs | .escaped cs _ => some cs
  | .foreign => none

/-- The registered name of an entry, where this library knows it. -/
def Entry.name? : Entry → Option Text
  | .plain cs => some cs.canonicalName
  | .escaped cs n => some ((List.replicate n escapedPrefix).flatten ++ cs.canonicalName)
  | .foreign => none

end Charset

end HostedLua
