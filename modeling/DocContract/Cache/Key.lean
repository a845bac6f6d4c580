import DocContract.Digest.Sha256
import DocContract.Json.Printer
import DocContract.Settings
import DocContract.SourceUnit
import DocContract.Text.Utf8

/-!
# Cache keys

The result of checking a file is kept under a digest of everything that it depends on: the options
that bear on findings, the path, the text, and the symbols of the file or of its paired source. The
text that is digested separates its parts by NUL characters.
-/

namespace DocContract

/-- A key: a digest in hexadecimal digits. -/
structure CacheKey where
  hex : Text
  deriving DecidableEq, Repr

namespace CacheKey

/-- The separator of the parts of a key text. -/
def separator : Text := [Char.ofNat 0]

/-- A part of a key text with its separator. -/
def part (t : Text) : Text := t ++ separator

/-- The JSON form of the symbols of a file. -/
def symbolsText (symbols : List Symbol) : Text :=
  (Json.array (symbols.map Symbol.toJson)).compact

/-- The JSON form of a stated kind. -/
def kindText (kind? : Option TestKind) : Text :=
  (match kind? with
    | none => Json.null
    | some kind => kind.toJson).compact

/-- The key text of a source file under some options. -/
def sourceText (fingerprint : Text) (u : SourceUnit) : Text :=
  part "source" ++ part fingerprint ++ part u.path ++ part u.text ++ symbolsText u.symbols

/-- The part of a key text for the paired source file of a test file. -/
def pairedText : Option SourceUnit → Text
  | none => []
  | some source => part source.path ++ symbolsText source.symbols

/-- The key text of a test file under some options. -/
def testText (fingerprint : Text) (u : TestUnit) (source? : Option SourceUnit) : Text :=
  part "test" ++ part fingerprint ++ part u.path ++ part u.text ++ kindText u.kind?
    ++ pairedText source?

/-- The key of a key text. -/
def ofText (t : Text) : CacheKey := ⟨Sha256.hex (Text.encode t)⟩

end CacheKey

end DocContract
