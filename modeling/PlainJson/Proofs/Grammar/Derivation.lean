import PlainJson.Grammar
import PlainJson.Proofs.Table
import PlainJson.Proofs.Text.Stretch

/-!
The grammar of documents as a relation between characters and values. It says which texts are
written forms of a value without saying how one is read.
-/
set_option autoImplicit false

namespace PlainJson.Grammar

open PlainJson.Text

variable {α : Type}

/-- One or more texts with a comma between each and the next. -/
inductive Separated (D : List Char → α → Prop) : List Char → List α → Prop where
  | one {cs : List Char} {a : α} : D cs a → Separated D cs [a]
  | more {cs ds : List Char} {a : α} {as : List α} :
      D cs a → Separated D ds as → Separated D (cs ++ ',' :: ds) (a :: as)

/-- White space may stand on both sides. -/
inductive Padded (D : List Char → α → Prop) : List Char → α → Prop where
  | pad {l cs r : List Char} {a : α} :
      AllOf isBlank l → D cs a → AllOf isBlank r → Padded D (l ++ cs ++ r) a

/-- Any characters but double quotes, between two of them. -/
inductive Quoted : List Char → String → Prop where
  | quoted {cs : List Char} : '"' ∉ cs → Quoted ('"' :: cs ++ ['"']) (String.ofList cs)

/-- A key and a value, with a colon between them. -/
inductive Member (D : List Char → Value → Prop) : List Char → String × Value → Prop where
  | pair {ks cs : List Char} {k : String} {x : Value} :
      Padded Quoted ks k → D cs x → Member D (ks ++ ':' :: cs) (k, x)

/-- Values without the white space around them. -/
inductive Bare : List Char → Value → Prop where
  | null : Bare "null".toList .null
  | bool (b : Bool) : Bare (if b then "true" else "false").toList (.bool b)
  | string {cs : List Char} {s : String} : Quoted cs s → Bare cs (.text s)
  | number {ds : List Char} :
      ds ≠ [] → ds.length ≤ maxDigits → AllOf Char.isDigit ds → Bare ds (.int (decimalValue ds))
  | array {cs : List Char} {xs : List Value} :
      Separated (Padded Bare) cs xs → Bare ('[' :: cs ++ [']']) (.list xs)
  | object {cs : List Char} {ms table : List (String × Value)} :
      Separated (Member (Padded Bare)) cs ms → KeepsLast ms table →
        Bare ('\x7b' :: cs ++ ['\x7d']) (.dict table)

abbrev Derives : List Char → Value → Prop := Padded Bare

section
variable {D E : List Char → α → Prop} {cs ds : List Char} {a : α} {as : List α}

theorem Separated.imp_of_mem (h : ∀ cs, ∀ a ∈ as, D cs a → E cs a) (hs : Separated D cs as) :
    Separated E cs as := by
  induction hs with
  | one hd => exact .one (h _ _ (by simp) hd)
  | more hd _ ih => exact .more (h _ _ (by simp) hd) (ih fun cs a ha => h cs a (by simp [ha]))

theorem Separated.imp (h : ∀ cs a, D cs a → E cs a) (hs : Separated D cs as) :
    Separated E cs as :=
  hs.imp_of_mem fun cs a _ => h cs a

theorem Separated.ne_nil (h : Separated D cs as) : as ≠ [] := by
  cases h with
  | one => simp
  | more => simp

theorem Separated.head (h : Separated D cs as) : ∃ ds a t, cs = ds ++ t ∧ D ds a := by
  cases h with
  | one hd => exact ⟨cs, _, [], by simp, hd⟩
  | more hd => exact ⟨_, _, _, rfl, hd⟩

theorem Separated.all {P : α → Prop} (h : ∀ cs a, D cs a → P a) (hs : Separated D cs as) :
    ∀ a ∈ as, P a := by
  induction hs with
  | one hd => simpa using h _ _ hd
  | more hd _ ih => exact List.forall_mem_cons.2 ⟨h _ _ hd, ih⟩

theorem exists_separated (hn : as ≠ []) (h : ∀ a ∈ as, ∃ cs, D cs a) :
    ∃ cs, Separated D cs as := by
  induction as with
  | nil => exact (hn rfl).elim
  | cons a as ih =>
    obtain ⟨cs, hd⟩ := h a (by simp)
    cases as with
    | nil => exact ⟨cs, .one hd⟩
    | cons b as =>
      obtain ⟨ds, hs⟩ := ih (by simp) fun c hc => h c (by simp [hc])
      exact ⟨cs ++ ',' :: ds, .more hd hs⟩

theorem Padded.imp (h : ∀ cs a, D cs a → E cs a) (hp : Padded D cs a) : Padded E cs a := by
  cases hp with
  | pad hl hd hr => exact .pad hl (h _ _ hd) hr

theorem Padded.of_bare (h : D cs a) : Padded D cs a := by
  have hp := Padded.pad (D := D) allOf_nil h allOf_nil
  simpa using hp

theorem Padded.widen {l r : List Char} (hl : AllOf isBlank l) (h : Padded D cs a)
    (hr : AllOf isBlank r) : Padded D (l ++ cs ++ r) a := by
  cases h with
  | @pad l' cs r' _ hl' hd hr' =>
    have hp := Padded.pad (allOf_append.2 ⟨hl, hl'⟩) hd (allOf_append.2 ⟨hr', hr⟩)
    simpa using hp

end

theorem Member.imp {D E : List Char → Value → Prop} {cs : List Char} {m : String × Value}
    (h : ∀ cs x, D cs x → E cs x) (hm : Member D cs m) : Member E cs m := by
  cases hm with
  | pair hk hd => exact .pair hk (h _ _ hd)

/-- Induction on bare values, where what is known of the values inside an array or an object comes
with the derivations of its items or members. -/
theorem Bare.nested {P : List Char → Value → Prop} (null : P "null".toList .null)
    (bool : ∀ b : Bool, P (if b then "true" else "false").toList (.bool b))
    (string : ∀ {cs : List Char} {s : String}, Quoted cs s → P cs (.text s))
    (number : ∀ {ds : List Char}, ds ≠ [] → ds.length ≤ maxDigits → AllOf Char.isDigit ds →
      P ds (.int (decimalValue ds)))
    (array : ∀ {cs : List Char} {xs : List Value},
      Separated (Padded fun ds y => Bare ds y ∧ P ds y) cs xs → P ('[' :: cs ++ [']']) (.list xs))
    (object : ∀ {cs : List Char} {ms table : List (String × Value)},
      Separated (Member (Padded fun ds y => Bare ds y ∧ P ds y)) cs ms → KeepsLast ms table →
        P ('\x7b' :: cs ++ ['\x7d']) (.dict table))
    {cs : List Char} {x : Value} (h : Bare cs x) : P cs x := by
  let Q : List Char → Value → Prop := fun ds y => Bare ds y ∧ P ds y
  exact @Bare.rec (fun cs x _ => P cs x) (fun cs xs _ => Separated (Padded Q) cs xs)
    (fun cs ms _ => Separated (Member (Padded Q)) cs ms) (fun cs x _ => Padded Q cs x)
    (fun cs m _ => Member (Padded Q) cs m)
    null bool string number (fun _ ih => array ih) (fun _ hk ih => object ih hk)
    (fun _ ih => .one ih) (fun _ _ ih ihs => .more ih ihs)
    (fun _ ih => .one ih) (fun _ _ ih ihs => .more ih ihs)
    (fun hl hb hr ih => .pad hl ⟨hb, ih⟩ hr) (fun hk _ ih => .pair hk ih) cs x h

end PlainJson.Grammar
