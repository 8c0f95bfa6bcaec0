import ACBackup.Library.ElementTree

/-!
A document as a sequence of tokens in Polish notation, and a number as a word
that no proper beginning of it is. Both are deliberately simple; reading a
document folds its tokens from the right over a stack of finished elements.
-/

namespace ACBackup.Library.DocumentText

open ACBackup.Library.ElementTree

set_option autoImplicit false

universe u v

instance encodableChar : Encodable Char :=
  Encodable.ofLeftInverse Char.toNat Char.ofNat Char.ofNat_toNat

instance encodableString : Encodable String :=
  Encodable.ofLeftInverse String.toList String.ofList fun _ => String.ofList_toList

section Tokens

variable {Scalar : Type u}

inductive Token (Scalar : Type u) where
  | text (name : String) (value : Scalar)
  | opening (name : String) (attributes : List (String × Scalar)) (children : Nat)
  deriving Encodable

mutual

def tokens : Element Scalar → List (Token Scalar)
  | .text name value => [.text name value]
  | .element name attributes children =>
      .opening name attributes children.length :: tokensOfLevel children

def tokensOfLevel : List (Element Scalar) → List (Token Scalar)
  | [] => []
  | first :: rest => tokens first ++ tokensOfLevel rest

end

/-- An opening token takes its children from the stack. -/
def place (token : Token Scalar) (stack : List (Element Scalar)) : List (Element Scalar) :=
  match token with
  | .text name value => .text name value :: stack
  | .opening name attributes children =>
      .element name attributes (stack.take children) :: stack.drop children

mutual

theorem place_tokens (element : Element Scalar) (stack : List (Element Scalar)) :
    (tokens element).foldr place stack = element :: stack := by
  cases element with
  | text name value => rfl
  | element name attributes children =>
      rw [tokens, List.foldr_cons, place_tokens_of_level children stack, place,
        List.take_left, List.drop_left]

theorem place_tokens_of_level (level stack : List (Element Scalar)) :
    (tokensOfLevel level).foldr place stack = level ++ stack := by
  cases level with
  | nil => rfl
  | cons first rest =>
      rw [tokensOfLevel, List.foldr_append, place_tokens_of_level rest stack,
        place_tokens first (rest ++ stack), List.cons_append]

end

end Tokens

section Numerals

/-- A one continues the numeral and a zero ends it. -/
def encodeNumeral (number : Nat) : List UInt8 := List.replicate number 1 ++ [0]

def decodeNumeral (word : List UInt8) : Option Nat :=
  if word.getLast? = some 0 then some (word.length - 1) else none

theorem decode_encode_numeral (number : Nat) :
    decodeNumeral (encodeNumeral number) = some number := by
  simp [decodeNumeral, encodeNumeral]

theorem incomplete_numeral {number : Nat} {word : List UInt8}
    (breaksOff : word <+: encodeNumeral number) (different : word ≠ encodeNumeral number) :
    decodeNumeral word = none := by
  obtain same | inside := List.prefix_concat_iff.mp breaksOff
  · exact absurd same different
  · have ones : ∀ byte ∈ word, byte = 1 := fun byte member =>
      List.eq_of_mem_replicate (inside.subset member)
    rw [decodeNumeral, if_neg]
    intro ends
    have last := ones 0 (List.mem_of_getLast? ends)
    exact absurd last (by decide)

variable {Value : Type v} [Encodable Value]

def encodeValue (value : Value) : List UInt8 := encodeNumeral (Encodable.encode value)

def decodeValue (word : List UInt8) : Option Value := (decodeNumeral word).bind Encodable.decode

theorem decode_encode_value (value : Value) : decodeValue (encodeValue value) = some value := by
  rw [decodeValue, encodeValue, decode_encode_numeral, Option.bind_some, Encodable.encodek]

theorem encode_value_nonempty (value : Value) : encodeValue value ≠ [] :=
  List.append_ne_nil_of_right_ne_nil _ (List.cons_ne_nil _ _)

theorem incomplete_value {value : Value} {word : List UInt8}
    (breaksOff : word <+: encodeValue value) (different : word ≠ encodeValue value) :
    (decodeValue word : Option Value) = none := by
  rw [decodeValue, incomplete_numeral breaksOff different, Option.bind_none]

end Numerals

end ACBackup.Library.DocumentText
