import PlainJson.Proofs.Text.Stretch

/-!
The syntax of JSON as programs exchange it, of which documents have only a part. Here texts may be
escaped, numbers may have a sign, a fraction and an exponent, arrays and objects may be empty, and
white space is of four characters. What is written is kept as a tree of tokens.
-/
set_option autoImplicit false

namespace PlainJson.Interchange

open PlainJson.Text

variable {α : Type}

/-- A character of a text as it is written: as itself, as a backslash and one character, or as a
backslash, the letter `u` and four hexadecimal digits. -/
inductive Piece where
  | plain (c : Char)
  | short (c : Char)
  | code (a b c d : Char)
  deriving DecidableEq, Repr

namespace Piece

def raw : Piece → List Char
  | .plain c => [c]
  | .short c => ['\\', c]
  | .code a b c d => ['\\', 'u', a, b, c, d]

def isHex (c : Char) : Bool :=
  c.isDigit || ('a'.toNat ≤ c.toNat && c.toNat ≤ 'f'.toNat) ||
    ('A'.toNat ≤ c.toNat && c.toNat ≤ 'F'.toNat)

def allowed : Piece → Bool
  | .plain c => 0x20 ≤ c.toNat && c != '"' && c != '\\'
  | .short c => "\"\\/bfnrt".toList.contains c
  | .code a b c d => [a, b, c, d].all isHex

end Piece

/-- The tree of the tokens of a text. Numbers and texts are kept as they are written. -/
inductive Tree where
  | null
  | bool (b : Bool)
  | number (cs : List Char)
  | text (ps : List Piece)
  | array (ts : List Tree)
  | object (ms : List (List Piece × Tree))

/-- A whole number without zeros in front. -/
inductive Whole : List Char → Prop where
  | zero : Whole ['0']
  | more {c : Char} {ds : List Char} :
      c.isDigit = true → c ≠ '0' → AllOf Char.isDigit ds → Whole (c :: ds)

inductive Fraction : List Char → Prop where
  | none : Fraction []
  | point {ds : List Char} : ds ≠ [] → AllOf Char.isDigit ds → Fraction ('.' :: ds)

inductive Exponent : List Char → Prop where
  | none : Exponent []
  | power {e : Char} {sign ds : List Char} :
      e = 'e' ∨ e = 'E' → sign = [] ∨ sign = ['+'] ∨ sign = ['-'] → ds ≠ [] →
        AllOf Char.isDigit ds → Exponent (e :: sign ++ ds)

inductive Number : List Char → Prop where
  | number {sign ds fs es : List Char} :
      sign = [] ∨ sign = ['-'] → Whole ds → Fraction fs → Exponent es →
        Number (sign ++ ds ++ fs ++ es)

inductive Spelled : List Char → List Piece → Prop where
  | spelled {ps : List Piece} :
      (∀ p ∈ ps, p.allowed = true) → Spelled ('"' :: ps.flatMap Piece.raw ++ ['"']) ps

/-- A structural character. White space may stand around it. -/
inductive Mark (c : Char) : List Char → Prop where
  | mark {l r : List Char} :
      AllOf Char.isWhitespace l → AllOf Char.isWhitespace r → Mark c (l ++ c :: r)

inductive Listed (D : List Char → α → Prop) : List Char → List α → Prop where
  | one {cs : List Char} {a : α} : D cs a → Listed D cs [a]
  | more {cs ms ds : List Char} {a : α} {as : List α} :
      D cs a → Mark ',' ms → Listed D ds as → Listed D (cs ++ ms ++ ds) (a :: as)

inductive Entry (D : List Char → Tree → Prop) : List Char → List Piece × Tree → Prop where
  | pair {ks ms cs : List Char} {ps : List Piece} {t : Tree} :
      Spelled ks ps → Mark ':' ms → D cs t → Entry D (ks ++ ms ++ cs) (ps, t)

inductive Written : List Char → Tree → Prop where
  | null : Written "null".toList .null
  | bool (b : Bool) : Written (if b then "true" else "false").toList (.bool b)
  | number {cs : List Char} : Number cs → Written cs (.number cs)
  | text {cs : List Char} {ps : List Piece} : Spelled cs ps → Written cs (.text ps)
  | noItems {a b : List Char} : Mark '[' a → Mark ']' b → Written (a ++ b) (.array [])
  | array {a cs b : List Char} {ts : List Tree} :
      Mark '[' a → Listed Written cs ts → Mark ']' b → Written (a ++ cs ++ b) (.array ts)
  | noEntries {a b : List Char} :
      Mark '\x7b' a → Mark '\x7d' b → Written (a ++ b) (.object [])
  | object {a cs b : List Char} {ms : List (List Piece × Tree)} :
      Mark '\x7b' a → Listed (Entry Written) cs ms → Mark '\x7d' b →
        Written (a ++ cs ++ b) (.object ms)

/-- All of a document, with white space around the one value in it. -/
inductive Valid : List Char → Tree → Prop where
  | pad {l cs r : List Char} {t : Tree} :
      AllOf Char.isWhitespace l → Written cs t → AllOf Char.isWhitespace r → Valid (l ++ cs ++ r) t

theorem Listed.ne_nil {D : List Char → α → Prop} {cs : List Char} {as : List α}
    (h : Listed D cs as) : as ≠ [] := by
  cases h <;> simp

/-- Induction on what is written. What is known of the values inside an array or an object comes with
the forms of its items or entries. -/
theorem Written.nested {P : List Char → Tree → Prop} (null : P "null".toList .null)
    (bool : ∀ b : Bool, P (if b then "true" else "false").toList (.bool b))
    (number : ∀ {cs : List Char}, Number cs → P cs (.number cs))
    (text : ∀ {cs : List Char} {ps : List Piece}, Spelled cs ps → P cs (.text ps))
    (noItems : ∀ {a b : List Char}, Mark '[' a → Mark ']' b → P (a ++ b) (.array []))
    (array : ∀ {a cs b : List Char} {ts : List Tree},
      Mark '[' a → Listed (fun ds u => Written ds u ∧ P ds u) cs ts → Mark ']' b →
        P (a ++ cs ++ b) (.array ts))
    (noEntries : ∀ {a b : List Char}, Mark '\x7b' a → Mark '\x7d' b → P (a ++ b) (.object []))
    (object : ∀ {a cs b : List Char} {ms : List (List Piece × Tree)},
      Mark '\x7b' a → Listed (Entry fun ds u => Written ds u ∧ P ds u) cs ms → Mark '\x7d' b →
        P (a ++ cs ++ b) (.object ms))
    {cs : List Char} {t : Tree} (h : Written cs t) : P cs t := by
  let Q : List Char → Tree → Prop := fun ds u => Written ds u ∧ P ds u
  exact @Written.rec (fun cs t _ => P cs t) (fun cs ts _ => Listed Q cs ts)
    (fun cs ms _ => Listed (Entry Q) cs ms) (fun cs m _ => Entry Q cs m)
    null bool number text noItems (fun ha _ hb ih => array ha ih hb) noEntries
    (fun ha _ hb ih => object ha ih hb) (fun hd ih => .one ⟨hd, ih⟩)
    (fun hd hm _ ih ihs => .more ⟨hd, ih⟩ hm ihs) (fun _ ih => .one ih)
    (fun _ hm _ ih ihs => .more ih hm ihs) (fun hk hm hd ih => .pair hk hm ⟨hd, ih⟩) cs t h

end PlainJson.Interchange
