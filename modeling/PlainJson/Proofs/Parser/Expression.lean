import PlainJson.Proofs.Parser.Results

/-!
Expressions for parsers. A parser that was put together from parts is written down with all of its
parts, however deep; a part may refer to one of several rules, which may refer to each other and to
themselves. References are followed as deep as one wants: a run that would have to follow them
deeper ends by a fault, so a run that ends with a result has not been cut short.
-/
set_option autoImplicit false

namespace PlainJson.Parser

/-- What rule `i` yields is of type `τ i`. A leaf is a parser that is not looked into. -/
inductive Expr {ι : Type} (τ : ι → Type) : Type → Type 1 where
  | leaf {α : Type} (p : Parser α) : Expr τ α
  | literal (expected : String) : Expr τ Unit
  | anyChar : Expr τ Char
  | pair {α β : Type} (p : Expr τ α) (q : Expr τ β) : Expr τ (α × β)
  | map {α β : Type} (p : Expr τ α) (f : α → β) : Expr τ β
  | convert {α β : Type} (p : Expr τ α) (f : α → Except Fault β) : Expr τ β
  | filter {α : Type} (p : Expr τ α) (f : α → Bool) : Expr τ α
  | many {α : Type} (p : Expr τ α) : Expr τ (List α)
  | either {α κ : Type} (ks : List κ) (alternative : κ → Expr τ α) : Expr τ α
  | ref (i : ι) : Expr τ (τ i)

/-- Ends the run by the fault `alarm` on a view that is not in `S`. -/
def guarded {α : Type} (p : Parser α) (S : View → Prop) [DecidablePred S] (alarm : Fault) :
    Parser α where
  label := p.label
  run v := if S v then p.run v else .fault alarm

/-- Ends every run by a fault. -/
def endless {α : Type} : Parser α := ⟨.named "parser", fun _ => .fault .endless⟩

namespace Expr

variable {ι : Type} {τ : ι → Type} {α β : Type}

/-- The parser of an expression, where `refs` are the rules. -/
def parser (refs : (i : ι) → Parser (τ i)) : {α : Type} → Expr τ α → Parser α
  | _, .leaf p => p
  | _, .literal s => Parser.literal s
  | _, .anyChar => Parser.anyChar
  | _, .pair p q => (p.parser refs).pair (q.parser refs)
  | _, .map p f => (p.parser refs).map f
  | _, .convert p f => (p.parser refs).convert f
  | _, .filter p f => (p.parser refs).filter f
  | _, .many p => (p.parser refs).many
  | _, .either ks p => Parser.either (ks.map fun k _ => (p k).parser refs)
  | _, .ref i => refs i

/-- The same parser with a guard around each of its parts. -/
def watched (S : View → Prop) [DecidablePred S] (alarm : Fault) (refs : (i : ι) → Parser (τ i)) :
    {α : Type} → Expr τ α → Parser α
  | _, .leaf p => p.guarded S alarm
  | _, .literal s => (Parser.literal s).guarded S alarm
  | _, .anyChar => Parser.anyChar.guarded S alarm
  | _, .pair p q => ((p.watched S alarm refs).pair (q.watched S alarm refs)).guarded S alarm
  | _, .map p f => ((p.watched S alarm refs).map f).guarded S alarm
  | _, .convert p f => ((p.watched S alarm refs).convert f).guarded S alarm
  | _, .filter p f => ((p.watched S alarm refs).filter f).guarded S alarm
  | _, .many p => (p.watched S alarm refs).many.guarded S alarm
  | _, .either ks p =>
    (Parser.either (ks.map fun k _ => (p k).watched S alarm refs)).guarded S alarm
  | _, .ref i => (refs i).guarded S alarm

/-- The rules, with references followed at most `depth` deep. -/
def unroll (rules : (i : ι) → Expr τ (τ i)) : Nat → (i : ι) → Parser (τ i)
  | 0, _ => endless
  | depth + 1, i => (rules i).parser (unroll rules depth)

def unrollWatched (S : View → Prop) [DecidablePred S] (alarm : Fault)
    (rules : (i : ι) → Expr τ (τ i)) : Nat → (i : ι) → Parser (τ i)
  | 0, _ => endless
  | depth + 1, i => (rules i).watched S alarm (unrollWatched S alarm rules depth)

/-- Every leaf has the property. -/
def Leaves (P : {γ : Type} → Parser γ → Prop) : {α : Type} → Expr τ α → Prop
  | _, .leaf p => P p
  | _, .literal _ | _, .anyChar | _, .ref _ => True
  | _, .pair p q => p.Leaves P ∧ q.Leaves P
  | _, .map p _ | _, .convert p _ | _, .filter p _ | _, .many p => p.Leaves P
  | _, .either ks p => ∀ k ∈ ks, (p k).Leaves P

/-- Every parser that is repeated has the property. -/
def Repeated (P : {γ : Type} → Parser γ → Prop) (refs : (i : ι) → Parser (τ i)) :
    {α : Type} → Expr τ α → Prop
  | _, .leaf _ | _, .literal _ | _, .anyChar | _, .ref _ => True
  | _, .pair p q => p.Repeated P refs ∧ q.Repeated P refs
  | _, .map p _ | _, .convert p _ | _, .filter p _ => p.Repeated P refs
  | _, .many p => P (p.parser refs) ∧ p.Repeated P refs
  | _, .either ks p => ∀ k ∈ ks, (p k).Repeated P refs

section
variable {P Q : {γ : Type} → Parser γ → Prop} {e : Expr τ α} {refs : (i : ι) → Parser (τ i)}

theorem Leaves.imp (h : ∀ {γ : Type} (p : Parser γ), P p → Q p) (he : e.Leaves P) :
    e.Leaves Q := by
  induction e with
  | leaf p => exact h p he
  | literal | anyChar | ref => trivial
  | pair p q ihp ihq => exact ⟨ihp he.1, ihq he.2⟩
  | map p f ih | convert p f ih | filter p f ih | many p ih => exact ih he
  | either ks p ih => exact fun k hk => ih k (he k hk)

theorem Repeated.imp (h : ∀ {γ : Type} (p : Parser γ), P p → Q p) (he : e.Repeated P refs) :
    e.Repeated Q refs := by
  induction e with
  | leaf | literal | anyChar | ref => trivial
  | pair p q ihp ihq => exact ⟨ihp he.1, ihq he.2⟩
  | map p f ih | convert p f ih | filter p f ih => exact ih he
  | many p ih => exact ⟨h _ he.1, ih he.2⟩
  | either ks p ih => exact fun k hk => ih k (he k hk)

end

section
variable (p : Expr τ α) (q : Expr τ β)

def left : Expr τ α := (p.pair q).map Prod.fst

def right : Expr τ β := (p.pair q).map Prod.snd

def wrap (before : String) (after : String) : Expr τ α :=
  (literal before).right (p.left (literal after))

def many1 : Expr τ (List α) := (p.pair p.many).map cons

def blank : Expr τ Char := anyChar.filter Text.isBlank

def wrapBlank : Expr τ α := (many blank).right (p.left (many blank))

def separateBy (sep : String) : Expr τ (List α) :=
  (p.pair (many ((literal sep).right p))).map cons

end

section
variable (refs : (i : ι) → Parser (τ i)) (p : Expr τ α) (q : Expr τ β)

@[simp] theorem parser_left :
    (p.left q).parser refs = (p.parser refs).left (q.parser refs) := rfl

@[simp] theorem parser_wrap (before after : String) :
    (p.wrap before after).parser refs = Parser.wrap before (p.parser refs) after := rfl

@[simp] theorem parser_many1 : p.many1.parser refs = (p.parser refs).many1 := rfl

@[simp] theorem parser_wrapBlank : p.wrapBlank.parser refs = Parser.wrapBlank (p.parser refs) := rfl

@[simp] theorem parser_separateBy (sep : String) :
    (p.separateBy sep).parser refs = (p.parser refs).separateBy sep := rfl

end

end Expr

end PlainJson.Parser
