import DocContract.Text

/-!
# Masked comments

A test file is read with its comments blanked, so that what a comment says is never taken for code.
Every byte of a comment becomes a space and its newlines stay, so each character of the code keeps
its line and its column. Comment marks inside a literal are part of the literal.
-/

namespace DocContract

/-- What the lexer is inside of. -/
inductive Lexeme where
  | code
  /-- A string or template literal with the quote that opened it. -/
  | literal (quote : Char)
  | lineComment
  | blockComment
  deriving DecidableEq, Repr

/-- The characters that open a literal. -/
def isQuote (c : Char) : Bool := c == '\'' || c == '"' || c.toNat == 0x60

/-- Does the character end a literal? A newline does, except in a template. -/
def endsLiteral (quote c : Char) : Bool := c == quote || (c == '\n' && quote.toNat != 0x60)

namespace Lexeme

/-- What the lexer is inside of after a character of the code. -/
def afterCode (c : Char) : Lexeme := if isQuote c then .literal c else .code

/-- What the lexer is inside of after a character of a literal. -/
def afterLiteral (quote c : Char) : Lexeme := if endsLiteral quote c then .code else .literal quote

/-- What stands for a character of a comment. -/
def blanked (c : Char) : Text := if c = '\n' then ['\n'] else List.replicate c.utf8Size ' '

/-- The text that follows with its comments blanked. -/
def mask : Lexeme → Text → Text
  | _, [] => []
  | .code, '/' :: '/' :: r => ' ' :: ' ' :: mask .lineComment r
  | .code, '/' :: '*' :: r => ' ' :: ' ' :: mask .blockComment r
  | .code, c :: r => c :: mask (afterCode c) r
  | .literal quote, '\\' :: c :: r => '\\' :: c :: mask (.literal quote) r
  | .literal quote, c :: r => c :: mask (afterLiteral quote c) r
  | .lineComment, c :: r => blanked c ++ mask (if c = '\n' then .code else .lineComment) r
  | .blockComment, '*' :: '/' :: r => ' ' :: ' ' :: mask .code r
  | .blockComment, c :: r => blanked c ++ mask .blockComment r

/-- A character of the code that opens no comment. -/
theorem mask_code {c : Char} {r : Text} (hline : ∀ u, c = '/' → r = '/' :: u → False)
    (hblock : ∀ u, c = '/' → r = '*' :: u → False) :
    mask .code (c :: r) = c :: mask (afterCode c) r := by
  rw [mask]
  · exact hline
  · exact hblock

/-- A character of a literal that takes no other with it. -/
theorem mask_literal_cons {quote c : Char} {r : Text}
    (hslash : ∀ d u, c = '\\' → r = d :: u → False) :
    mask (.literal quote) (c :: r) = c :: mask (afterLiteral quote c) r := by
  rw [mask]
  exact hslash

end Lexeme

/-- The text with its comments blanked. -/
def maskComments (t : Text) : Text := Lexeme.code.mask t

end DocContract
