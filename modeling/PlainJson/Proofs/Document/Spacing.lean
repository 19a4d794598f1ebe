import PlainJson.Proofs.Document.Acceptance
import PlainJson.Proofs.Grammar.Spacing

/-!
White space in documents. Between two tokens any can be put in, and any that is there can be taken
out, and the value read is the same.
-/
set_option autoImplicit false

namespace PlainJson.Document

open PlainJson.Grammar PlainJson.Text

/-- A document is divided into tokens, and only those that are not white space count. -/
theorem exists_tokens {s : String} {x : Value} (h : read s = .ok x) : ∃ ts, Scanned s.toList ts ∧
    ∀ us, visible us = visible ts → read (String.ofList (text us)) = .ok x := by
  obtain ⟨ts, ht, hl⟩ := (derives_of_read h).spreads
  refine ⟨ts, ht, fun us hu => read_of_derives ?_⟩
  rw [String.toList_ofList]
  exact hl us hu

/-- A document is divided into tokens in one way. White space put in at a place not inside a token,
or taken out where it is not in double quotes, leaves a document with the same value. -/
theorem read_spacing (s : String) (x : Value) (h : read s = .ok x) :
    (∃ ts, Scanned s.toList ts ∧ ∀ us, Scanned s.toList us → us = ts) ∧
      (∀ n l, n ≤ s.length → ¬ Inside s.toList n → AllOf isBlank l →
        read (String.ofList (s.toList.take n ++ l ++ s.toList.drop n)) = .ok x) ∧
      ∀ n c, s.toList[n]? = some c → isBlank c = true → ¬ InQuoted s.toList n →
        read (String.ofList (s.toList.eraseIdx n)) = .ok x := by
  obtain ⟨ts, ht, hr⟩ := exists_tokens h
  refine ⟨⟨ts, ht, fun us hu => hu.unique ht⟩, fun n l hn hi hb => ?_, fun n c hc hb hq => ?_⟩
  · obtain ⟨us, hus, hv⟩ := ht.exists_put_in hn hi hb
    rw [← hus]
    exact hr us hv
  · obtain ⟨us, hus, hv⟩ := ht.exists_take_out hc hb hq
    rw [← hus]
    exact hr us hv

/-- A line end behind the brace, and no space before the colon; the one in the key stays. -/
theorem read_spacing_object :
    read "\x7b\"a b\" :1\x7d" = .ok (.dict [("a b", .int 1)]) ∧
      ¬ Inside "\x7b\"a b\" :1\x7d".toList 1 ∧ AllOf isBlank ['\n'] ∧
      read "\x7b\n\"a b\" :1\x7d" = .ok (.dict [("a b", .int 1)]) ∧
      ¬ InQuoted "\x7b\"a b\" :1\x7d".toList 6 ∧ isBlank ' ' = true ∧
      read "\x7b\"a b\":1\x7d" = .ok (.dict [("a b", .int 1)]) := by
  have h : read "\x7b\"a b\" :1\x7d" = .ok (.dict [("a b", .int 1)]) := rfl
  have hcs : '"' ∉ ['a', ' ', 'b'] := by decide
  let key : Token := ⟨.quoted, _, .quoted hcs⟩
  let one : Token := ⟨.digits, ['1'], .digits (by decide) (allOf_cons.2 ⟨rfl, allOf_nil⟩)⟩
  let front : List Token := [.mark '\x7b' (by decide), key]
  let back : List Token := [.mark ':' (by decide), one, .mark '\x7d' (by decide)]
  have hback : Scanned ":1\x7d".toList back :=
    .mark _ (.cons (t := one) (fun _ => clearOf_cons.2 rfl) (.mark _ .nil))
  have hs : Scanned "\x7b\"a b\" :1\x7d".toList (front ++ .blank ' ' (by decide) :: back) :=
    .mark _ (.cons (t := key) (fun hd => by cases hd) (.blank _ hback))
  have hi : ¬ Inside "\x7b\"a b\" :1\x7d".toList 1 :=
    @Scanned.not_inside [.mark '\x7b' (by decide)] (key :: .blank ' ' (by decide) :: back) _ hs
  have hq : ¬ InQuoted "\x7b\"a b\" :1\x7d".toList 6 :=
    hs.not_inQuoted (by decide) (Nat.le_refl 6) (Nat.lt_succ_self 6)
  have hb : AllOf isBlank ['\n'] := allOf_cons.2 ⟨rfl, allOf_nil⟩
  obtain ⟨-, hput, htake⟩ := read_spacing _ _ h
  exact ⟨h, hi, hb, hput 1 ['\n'] (by decide) hi hb, hq, rfl, htake 6 ' ' rfl rfl hq⟩

end PlainJson.Document
