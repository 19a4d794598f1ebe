import PlainJson.Grammar
import PlainJson.Reshape

/-!
Recipes: combinations of parsers written down as data, with named rules that may refer to one
another from the alternatives of a choice. A recipe is made into a parser of values by following its
shape. A reference is resolved when its turn comes, and how deep references can nest in a run that
ends is bounded by the rules and the places where each of them can start.
-/
set_option autoImplicit false

namespace PlainJson

mutual

inductive Recipe where
  | literal (expected : String)
  | anyChar
  | blank
  | pair (p q : Recipe)
  | left (p q : Recipe)
  | right (p q : Recipe)
  | wrap (before : String) (p : Recipe) (after : String)
  | map (p : Recipe) (f : Reshape)
  | filter (p : Recipe) (c : Check)
  | many (p : Recipe)
  | many1 (p : Recipe)
  | wrapBlank (p : Recipe)
  | separateBy (p : Recipe) (sep : String)
  | either (alternatives : List Choice)
  | kind (k : Kind)
  | json
  | succeed (v : Value)
  | failAt (count : Int)
  | take (count : Int)
  | spy (label : String) (p : Recipe)

inductive Choice where
  | ref (name : String)
  | lazy (label : String) (p : Recipe)
  | now (p : Recipe)

end

namespace Parser

def unnamed : Label := .named "parser"

def succeed (v : Value) : Parser Value := ⟨unnamed, fun w => .done (.success w v)⟩

def failAt (count : Int) : Parser Value := ⟨unnamed, fun w => .done (.failure (w.advance count))⟩

/-- Moves on without looking, and so can leave the text on either side. -/
def take (count : Int) : Parser Value :=
  ⟨.named "take", fun w => .done (.success (w.advance count) .null)⟩

/-- Reshapes the value, or ends the run if the value does not lend itself to it. -/
def reshape (p : Parser Value) (f : Reshape) : Parser Value :=
  p.convert fun x => (f.apply x).mapError .value

/-- The value together with what a check finds. -/
def examine (p : Parser Value) (c : Check) : Parser (Value × Bool) :=
  p.convert fun x => ((c.holds x).mapError .value).map fun b => (x, b)

def check (p : Parser Value) (c : Check) : Parser Value :=
  ((p.examine c).filter Prod.snd).map Prod.fst

/-- Records that `p` is called, and how it ends unless by a fault. -/
def spy {α : Type} (label : String) (p : Parser α) : Parser α where
  label := .named ("spy_" ++ label)
  run v := (Run.record (.call label v.pos)).andThen fun _ => (p.run v).andThen fun
    | .success w a => (Run.record (.ok label w.pos)).andThen fun _ => .done (.success w a)
    | .failure w => (Run.record (.fail label w.pos)).andThen fun _ => .done (.failure w)

end Parser

namespace Recipe

open PlainJson.Parser

mutual

/-- The parser of a recipe, where `refs` resolves the named rules. -/
def toParser (refs : String → Run (Parser Value)) : Recipe → Parser Value
  | .literal s => (Parser.literal s).map fun _ => .null
  | .anyChar => Parser.anyChar.map fun c => .text (String.singleton c)
  | .blank => Parser.blank.map fun c => .text (String.singleton c)
  | .pair p q => ((p.toParser refs).pair (q.toParser refs)).map fun x => .tuple [x.1, x.2]
  | .left p q => (p.toParser refs).left (q.toParser refs)
  | .right p q => (p.toParser refs).right (q.toParser refs)
  | .wrap before p after => Parser.wrap before (p.toParser refs) after
  | .map p f => (p.toParser refs).reshape f
  | .filter p c => (p.toParser refs).check c
  | .many p => (p.toParser refs).many.map .list
  | .many1 p => (p.toParser refs).many1.map .list
  | .wrapBlank p => Parser.wrapBlank (p.toParser refs)
  | .separateBy p sep => ((p.toParser refs).separateBy sep).map .list
  | .either alternatives => eitherOf (choices refs alternatives)
  | .kind k => Grammar.ofKind k
  | .json => Grammar.value
  | .succeed v => Parser.succeed v
  | .failAt n => Parser.failAt n
  | .take n => Parser.take n
  | .spy label p => (p.toParser refs).spy label

def choices (refs : String → Run (Parser Value)) : List Choice → List (Unit → Run (Parser Value))
  | [] => []
  | c :: cs => choice refs c :: choices refs cs

def choice (refs : String → Run (Parser Value)) : Choice → Unit → Run (Parser Value)
  | .ref name, _ => refs name
  | .lazy label p, _ => (Run.record (.built label)).andThen fun _ => .done (p.toParser refs)
  | .now p, _ => .done (p.toParser refs)

end

/-- Named rules whose references are followed at most `depth` deep. -/
def resolve (rules : List (String × Recipe)) : Nat → String → Run (Parser Value)
  | 0, _ => .fault .endless
  | depth + 1, name =>
    match rules.lookup name with
    | some r => .done (r.toParser (resolve rules depth))
    | none => .fault (.unknownRule name)

def depthFor (rules : List (String × Recipe)) (v : View) : Nat := rules.length * v.reach + 1

def parser (rules : List (String × Recipe)) (r : Recipe) : Parser Value where
  label := (r.toParser (resolve rules 0)).label
  run v := (r.toParser (resolve rules (depthFor rules v))).run v

end Recipe

end PlainJson
