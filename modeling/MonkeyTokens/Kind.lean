/-
What a token can be.

Kinds fall into four groups.  Punctuation marks and reserved words have one fixed
spelling each.  Names, numbers and stray characters bring their own text.  The end of
the text is a kind too, so that a token stream says where it stops.

Each kind has three outward forms: the name that listings print, the number that
identifies it in compact encodings, and the label that log lines use.
-/

namespace MonkeyTokens

/-- The two pairs of delimiters that nest. -/
inductive Bracket where
  /-- Round brackets. -/
  | paren
  /-- Curly brackets. -/
  | brace
  deriving DecidableEq

/-- Marks of one character that are tokens by themselves. -/
inductive Punct where
  | assign
  | plus
  | comma
  | semicolon
  /-- The left half of a pair of delimiters. -/
  | opening (b : Bracket)
  /-- The right half of a pair of delimiters. -/
  | closing (b : Bracket)
  deriving DecidableEq

/-- The reserved words of the language. -/
inductive Keyword where
  | fnWord
  | letWord
  | trueWord
  | falseWord
  | ifWord
  | elseWord
  | returnWord
  deriving DecidableEq

/-- The kinds of token. -/
inductive Kind where
  /-- A character that begins no other token. -/
  | illegal
  /-- The end of the text. -/
  | eof
  /-- A run of letters that is no reserved word. -/
  | ident
  /-- A run of digits. -/
  | int
  | punct (p : Punct)
  | keyword (k : Keyword)
  deriving DecidableEq

/-! ### Spelling -/

/-- The text of a punctuation mark. -/
def Punct.spelling : Punct → String
  | .assign => "="
  | .plus => "+"
  | .comma => ","
  | .semicolon => ";"
  | .opening .paren => "("
  | .closing .paren => ")"
  | .opening .brace => "\x7b"
  | .closing .brace => "\x7d"

/-- The text of a reserved word. -/
def Keyword.spelling : Keyword → String
  | .fnWord => "fn"
  | .letWord => "let"
  | .trueWord => "true"
  | .falseWord => "false"
  | .ifWord => "if"
  | .elseWord => "else"
  | .returnWord => "return"

/-- The text that every token of this kind has, for the kinds that fix it. -/
def Kind.spelling : Kind → Option String
  | .punct p => some p.spelling
  | .keyword k => some k.spelling
  | .illegal | .eof | .ident | .int => none

/-! ### Recognition -/

/-- The punctuation mark that a byte stands for, if it stands for one. -/
def Punct.ofByte? (b : UInt8) : Option Punct :=
  match Char.ofUInt8 b with
  | '=' => some .assign
  | '+' => some .plus
  | ',' => some .comma
  | ';' => some .semicolon
  | '(' => some (.opening .paren)
  | ')' => some (.closing .paren)
  | '{' => some (.opening .brace)
  | '}' => some (.closing .brace)
  | _ => none

/-- The reserved word that `text` spells, if it spells one.  Case counts. -/
def Keyword.ofText? : String → Option Keyword
  | "fn" => some .fnWord
  | "let" => some .letWord
  | "true" => some .trueWord
  | "false" => some .falseWord
  | "if" => some .ifWord
  | "else" => some .elseWord
  | "return" => some .returnWord
  | _ => none

/-- The reserved word that `text` spells, looked for among those of its length in bytes only.
A text of another length is compared with no word at all. -/
def Keyword.amongLength? (text : String) : Option Keyword :=
  match text.utf8ByteSize with
  | 2 =>
    match text with
    | "fn" => some .fnWord
    | "if" => some .ifWord
    | _ => none
  | 3 =>
    match text with
    | "let" => some .letWord
    | _ => none
  | 4 =>
    match text with
    | "true" => some .trueWord
    | "else" => some .elseWord
    | _ => none
  | 5 =>
    match text with
    | "false" => some .falseWord
    | _ => none
  | 6 =>
    match text with
    | "return" => some .returnWord
    | _ => none
  | _ => none

/-- The kind of a run of letters: its reserved word, or else a plain name. -/
def Kind.ofWord (text : String) : Kind :=
  match Keyword.amongLength? text with
  | some k => .keyword k
  | none => .ident

@[simp] theorem Kind.ofWord_ne_eof (text : String) : Kind.ofWord text ≠ .eof := by
  unfold Kind.ofWord
  split <;> simp

/-! ### Outward forms -/

/-- The name that listings print. -/
def Kind.name : Kind → String
  | .illegal => "ILLEGAL"
  | .eof => "EOF"
  | .ident => "IDENT"
  | .int => "INT"
  | .punct .assign => "ASSIGN"
  | .punct .plus => "PLUS"
  | .punct .comma => "COMMA"
  | .punct .semicolon => "SEMICOLON"
  | .punct (.opening .paren) => "LPAREN"
  | .punct (.closing .paren) => "RPAREN"
  | .punct (.opening .brace) => "LBRACE"
  | .punct (.closing .brace) => "RBRACE"
  | .keyword .fnWord => "FUNCTION"
  | .keyword .letWord => "LET"
  | .keyword .trueWord => "TRUE"
  | .keyword .falseWord => "FALSE"
  | .keyword .ifWord => "IF"
  | .keyword .elseWord => "ELSE"
  | .keyword .returnWord => "RETURN"

/-- The label that log lines use. -/
def Kind.label : Kind → String
  | .illegal => "Illegal"
  | .eof => "Eof"
  | .ident => "Ident"
  | .int => "Int"
  | .punct .assign => "Assign"
  | .punct .plus => "Plus"
  | .punct .comma => "Comma"
  | .punct .semicolon => "Semicolon"
  | .punct (.opening .paren) => "LParen"
  | .punct (.closing .paren) => "RParen"
  | .punct (.opening .brace) => "LBrace"
  | .punct (.closing .brace) => "RBrace"
  | .keyword .fnWord => "Function"
  | .keyword .letWord => "Let"
  | .keyword .trueWord => "True"
  | .keyword .falseWord => "False"
  | .keyword .ifWord => "If"
  | .keyword .elseWord => "Else"
  | .keyword .returnWord => "Return"

/-- The number of a kind.  Each group has a block of its own, with room to grow. -/
def Kind.code : Kind → Nat
  | .illegal => 0
  | .eof => 1
  | .ident => 2
  | .int => 3
  | .punct .assign => 16
  | .punct .plus => 17
  | .punct .comma => 32
  | .punct .semicolon => 33
  | .punct (.opening .paren) => 34
  | .punct (.closing .paren) => 35
  | .punct (.opening .brace) => 36
  | .punct (.closing .brace) => 37
  | .keyword .fnWord => 64
  | .keyword .letWord => 65
  | .keyword .trueWord => 66
  | .keyword .falseWord => 67
  | .keyword .ifWord => 68
  | .keyword .elseWord => 69
  | .keyword .returnWord => 70

/-- The punctuation marks, in the order of their numbers. -/
def Punct.all : List Punct :=
  [.assign, .plus, .comma, .semicolon, .opening .paren, .closing .paren,
    .opening .brace, .closing .brace]

/-- The reserved words, in the order of their numbers. -/
def Keyword.all : List Keyword :=
  [.fnWord, .letWord, .trueWord, .falseWord, .ifWord, .elseWord, .returnWord]

/-- Every kind, in the order of their numbers. -/
def Kind.all : List Kind :=
  [.illegal, .eof, .ident, .int] ++ Punct.all.map .punct ++ Keyword.all.map .keyword

/-- The kind with a given printed name. -/
def Kind.ofName? (name : String) : Option Kind :=
  Kind.all.find? (·.name == name)

end MonkeyTokens
