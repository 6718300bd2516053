import Mathlib.Data.String.Basic

/-! # The quoted form of a text

How the `Debug` of a string or of a path prints it: between double quotes, with an escape for each
character that would not show as itself. A tab, a line break, a carriage return, a null, a backslash
and a double quote have escapes of their own, any other character that is not printed is written with
its number in hexadecimal, and so is a character that would combine with the one before it.

What is escaped below U+007F is fixed. Beyond it two tables of the Unicode character database decide,
which change from one release of the standard library to the next. They are a parameter here, so that
what is proved of a printed text holds for all of them. The messages of errors that quote a name, an
address or a path are built with `debugStr`: those of the configuration, of discovery, of pairing, and
of the Core's installation. -/

/-- The tables of the character database that decide beyond ASCII. A value of this type is any such
pair of tables, so a theorem about a text that is printed with one holds whichever release printed
it. -/
structure UnicodeTables where
  /-- `Grapheme_Extend`: the character combines with the one before it. -/
  graphemeExtend : Char → Bool
  /-- `is_printable`, as far as it looks characters up: whether the character shows as itself. -/
  printable : Char → Bool

namespace UnicodeTables

/-- Tables that take nothing beyond ASCII for printable, as good as any for a text in ASCII. -/
def ascii : UnicodeTables := ⟨fun _ => false, fun _ => false⟩

/-- `char::is_grapheme_extended`: the table is not asked below U+0300. -/
def isGraphemeExtended (t : UnicodeTables) (c : Char) : Bool := 0x2ff < c.toNat && t.graphemeExtend c

/-- `core::unicode::printable::is_printable`: the table is not asked about ASCII. -/
def isPrintable (t : UnicodeTables) (c : Char) : Bool :=
  if c.toNat < 0x20 then false
  else if c.toNat < 0x7f then true
  else t.printable c

end UnicodeTables

/-- `char::escape_unicode`: the number of the character in hexadecimal, without leading zeros. -/
def escapeUnicode (c : Char) : List Char :=
  "\\u\x7b".toList ++ Nat.toDigits 16 c.toNat ++ ['\x7d']

/-- `char::escape_debug_ext`, as it is called for a character between double quotes: a single quote
needs no escape there, and a combining character gets one even where it could be printed, since it
would change the character before it. -/
def escapeDebug (t : UnicodeTables) (c : Char) : List Char :=
  match c with
  | '\x00' => ['\\', '0']
  | '\t' => ['\\', 't']
  | '\r' => ['\\', 'r']
  | '\n' => ['\\', 'n']
  | '\\' => ['\\', '\\']
  | '"' => ['\\', '"']
  | c =>
      if t.isGraphemeExtended c then escapeUnicode c
      else if t.isPrintable c then [c]
      else escapeUnicode c

/-- The `Debug` of a text: each character with the escape it needs, between double quotes. -/
def debugStr (t : UnicodeTables) (s : String) : String :=
  String.ofList ('"' :: (s.toList.flatMap (escapeDebug t) ++ ['"']))

example : debugStr .ascii "a'b\t\"c\"\x07" = "\"a'b\\t\\\"c\\\"\\u\x7b7\x7d\"" := by decide
