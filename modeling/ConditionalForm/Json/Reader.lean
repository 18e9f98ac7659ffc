import ConditionalForm.Json.Basic
import ConditionalForm.Number.Numeral

set_option autoImplicit false

namespace ConditionalForm.Json

inductive Token where
  | openArray
  | closeArray
  | openObject
  | closeObject
  | comma
  | colon
  | text (s : String)
  | scalar (value : Json)

def isWholePart : List Char → Bool
  | [] => false
  | '0' :: rest => rest.isEmpty
  | _ => true

def numeral? (word : List Char) : Option Numeral :=
  let (negative, word) := match word with
    | '-' :: rest => (true, rest)
    | word => (false, word)
  let (whole, rest) := Numeral.takeDigits word
  if isWholePart whole then
    match rest with
    | [] => some ⟨negative, whole, none, none⟩
    | '.' :: rest =>
        match Numeral.takeDigits rest with
        | ([], _) => none
        | (fraction, []) => some ⟨negative, whole, some fraction, none⟩
        | (fraction, rest) =>
            match Numeral.takeExponent rest with
            | some (e, []) => some ⟨negative, whole, some fraction, some e⟩
            | _ => none
    | rest =>
        match Numeral.takeExponent rest with
        | some (e, []) => some ⟨negative, whole, none, some e⟩
        | _ => none
  else none

-- A whole numeral in 64 bits is a whole number, but for a negative zero; others are doubles.
def numberOf? (n : Numeral) : Option Number :=
  let value := Numeral.value n.whole
  if n.isWhole && n.negative && 0 < value && value ≤ Nat.pow 2 63 then some (.whole (-(value : Int)))
  else if n.isWhole && !n.negative && value < Nat.pow 2 64 then some (.whole value)
  else n.toDouble?.map .double

def scalar? (word : List Char) : Option Json :=
  match String.ofList word with
  | "null" => some .null
  | "true" => some (.bool true)
  | "false" => some (.bool false)
  | _ => (numeral? word).bind fun n => (numberOf? n).map .number

inductive Escape where
  | none
  | slash
  | digits (high : Option Nat) (count value : Nat)
  | pair (high : Nat)
  | pairSlash (high : Nat)

inductive Lexeme where
  | blank
  | word (chars : List Char)
  | quoted (chars : List Char) (escape : Escape)

structure Lexer where
  lexeme : Lexeme
  tokens : List Token

def hexValue? (c : Char) : Option Nat :=
  if '0' ≤ c && c ≤ '9' then some (c.toNat - '0'.toNat)
  else if 'a' ≤ c && c ≤ 'f' then some (c.toNat - 'a'.toNat + 10)
  else if 'A' ≤ c && c ≤ 'F' then some (c.toNat - 'A'.toNat + 10)
  else none

def isHighHalf (unit : Nat) : Bool := 0xD800 ≤ unit && unit < 0xDC00

def isLowHalf (unit : Nat) : Bool := 0xDC00 ≤ unit && unit < 0xE000

def unitDone (chars : List Char) (high : Option Nat) (unit : Nat) : Option Lexeme :=
  match high with
  | some h =>
      if isLowHalf unit then
        some (.quoted (Char.ofNat (0x10000 + (h - 0xD800) * 0x400 + (unit - 0xDC00)) :: chars) .none)
      else none
  | none =>
      if isHighHalf unit then some (.quoted chars (.pair unit))
      else if isLowHalf unit then none
      else some (.quoted (Char.ofNat unit :: chars) .none)

def shortEscape? (c : Char) : Option Char :=
  match c with
  | '"' => some '"'
  | '\\' => some '\\'
  | '/' => some '/'
  | 'b' => some (Char.ofNat 8)
  | 'f' => some (Char.ofNat 12)
  | 'n' => some '\n'
  | 'r' => some '\r'
  | 't' => some '\t'
  | _ => none

def quotedStep (chars : List Char) (escape : Escape) (c : Char) : Option (Lexeme ⊕ String) :=
  match escape with
  | .none =>
      if c == '"' then some (.inr (String.ofList chars.reverse))
      else if c == '\\' then some (.inl (.quoted chars .slash))
      else if c.toNat < 32 then none
      else some (.inl (.quoted (c :: chars) .none))
  | .slash =>
      if c == 'u' then some (.inl (.quoted chars (.digits none 0 0)))
      else (shortEscape? c).map fun plain => .inl (.quoted (plain :: chars) .none)
  | .digits high count value =>
      (hexValue? c).bind fun digit =>
        if count = 3 then (unitDone chars high (16 * value + digit)).map .inl
        else some (.inl (.quoted chars (.digits high (count + 1) (16 * value + digit))))
  | .pair high => if c == '\\' then some (.inl (.quoted chars (.pairSlash high))) else none
  | .pairSlash high => if c == 'u' then some (.inl (.quoted chars (.digits (some high) 0 0))) else none

def isWordChar (c : Char) : Bool := c.isAlphanum || c == '-' || c == '+' || c == '.'

namespace Lexer

def start (tokens : List Token) (c : Char) : Option Lexer :=
  match c with
  | ' ' => some ⟨.blank, tokens⟩
  | '\t' => some ⟨.blank, tokens⟩
  | '\n' => some ⟨.blank, tokens⟩
  | '\r' => some ⟨.blank, tokens⟩
  | '[' => some ⟨.blank, .openArray :: tokens⟩
  | ']' => some ⟨.blank, .closeArray :: tokens⟩
  | '\x7b' => some ⟨.blank, .openObject :: tokens⟩
  | '\x7d' => some ⟨.blank, .closeObject :: tokens⟩
  | ',' => some ⟨.blank, .comma :: tokens⟩
  | ':' => some ⟨.blank, .colon :: tokens⟩
  | '"' => some ⟨.quoted [] .none, tokens⟩
  | c => if isWordChar c then some ⟨.word [c], tokens⟩ else none

def step (l : Lexer) (c : Char) : Option Lexer :=
  match l.lexeme with
  | .blank => start l.tokens c
  | .word chars =>
      if isWordChar c then some ⟨.word (c :: chars), l.tokens⟩
      else (scalar? chars.reverse).bind fun value => start (.scalar value :: l.tokens) c
  | .quoted chars escape =>
      (quotedStep chars escape c).map fun
        | .inl lexeme => ⟨lexeme, l.tokens⟩
        | .inr s => ⟨.blank, .text s :: l.tokens⟩

def finish (l : Lexer) : Option (List Token) :=
  match l.lexeme with
  | .blank => some l.tokens.reverse
  | .word chars => (scalar? chars.reverse).map fun value => (.scalar value :: l.tokens).reverse
  | .quoted _ _ => none

end Lexer

def tokens? (text : List Char) : Option (List Token) :=
  (text.foldlM Lexer.step ⟨.blank, []⟩).bind Lexer.finish

inductive Frame where
  | array (items : List Json)
  | object (members : List (String × Json))
  | member (members : List (String × Json)) (name : String)

inductive Phase where
  | value
  | valueOrClose
  | name
  | nameOrClose
  | colon (name : String)
  | commaOrClose
  | complete (value : Json)

structure Stack where
  frames : List Frame
  phase : Phase

namespace Stack

def close (value : Json) : List Frame → Option Stack
  | [] => some ⟨[], .complete value⟩
  | .array items :: frames => some ⟨.array (value :: items) :: frames, .commaOrClose⟩
  | .member members name :: frames =>
      some ⟨.object ((name, value) :: members) :: frames, .commaOrClose⟩
  | .object _ :: _ => none

def begin (limit : Nat) (frames : List Frame) : Token → Option Stack
  | .scalar value => close value frames
  | .text s => close (.text s) frames
  | .openArray => if frames.length < limit then some ⟨.array [] :: frames, .valueOrClose⟩ else none
  | .openObject => if frames.length < limit then some ⟨.object [] :: frames, .nameOrClose⟩ else none
  | _ => none

def leave : List Frame → Token → Option Stack
  | .array items :: frames, .closeArray => close (.array items.reverse) frames
  | .object members :: frames, .closeObject =>
      close (.object (Members.ofList members.reverse)) frames
  | _, _ => none

def step (limit : Nat) (s : Stack) (token : Token) : Option Stack :=
  match s.phase, s.frames, token with
  | .value, frames, token => begin limit frames token
  | .valueOrClose, frames, .closeArray => leave frames .closeArray
  | .valueOrClose, frames, token => begin limit frames token
  | .name, frames, .text name => some ⟨frames, .colon name⟩
  | .nameOrClose, frames, .text name => some ⟨frames, .colon name⟩
  | .nameOrClose, frames, .closeObject => leave frames .closeObject
  | .colon name, .object members :: frames, .colon => some ⟨.member members name :: frames, .value⟩
  | .commaOrClose, .array items :: frames, .comma => some ⟨.array items :: frames, .value⟩
  | .commaOrClose, .object members :: frames, .comma => some ⟨.object members :: frames, .name⟩
  | .commaOrClose, frames, token => leave frames token
  | _, _, _ => none

end Stack

def nestingLimit : Nat := 127

def readWithin? (limit : Nat) (text : String) : Option Json := do
  let tokens ← tokens? text.toList
  let stack ← tokens.foldlM (Stack.step limit) ⟨[], .value⟩
  match stack.phase with
  | .complete value => some value
  | _ => none

def read? (text : String) : Option Json := readWithin? nestingLimit text

end ConditionalForm.Json
