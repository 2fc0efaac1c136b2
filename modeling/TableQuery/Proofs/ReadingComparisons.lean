import TableQuery.Proofs.ReadingUnits

/-!
# Comparisons are units

The tokens of a comparison are collected until something ends it, and only then read.  A comparison
that can be read is a unit if its parentheses match and none of its tokens ends it before its end.

One that cannot be read is no formula, but a reader does not notice this at once: what follows is
taken for more of the comparison.  So no formula comes of it if no continuation can be read either.

## Main results

* `run_start` — tokens of a comparison are collected.
* `settles_of_balanced` — a comparison is a unit.
* `conclude_of_unreadable` — no formula comes of a comparison that no continuation makes readable.
-/

namespace TableQuery.Sql

/-! ## Comparisons -/

/-- Whether a token ends a comparison, or changes what ends it. -/
def endsComparison (token : Token) : Bool :=
  token.isKeyword "AND" || token.isKeyword "OR" || token.isKeyword "BETWEEN" || token = .sign ")"

/-- The number of parentheses that are open after some tokens of a comparison, if none of the tokens
ends it. -/
def depthAfter? : Nat → List Token → Option Nat
  | depth, [] => some depth
  | depth, token :: ts =>
    if depth = 0 && endsComparison token then none
    else depthAfter? (if token = .sign "(" then depth + 1
      else if token = .sign ")" then depth - 1 else depth) ts

section Comparisons

variable {F : Type} {d : Dialect F} {frame : Frame F} {outer : List (Frame F)}

theorem depthAfter?_append (ts us : List Token) (depth : Nat) :
    depthAfter? depth (ts ++ us) = (depthAfter? depth ts).bind (depthAfter? · us) := by
  induction ts generalizing depth with
  | nil => rfl
  | cons token ts ih =>
      rw [List.cons_append, depthAfter?, depthAfter?]
      split
      · rfl
      · exact ih _

/-- A token inside of a comparison that has been begun is put to it. -/
theorem step_push {token : Token} (hgroup : frame.group = none) (hbegun : frame.comparison ≠ [])
    (hrange : frame.inRange = false)
    (htoken : ¬ (frame.depth = 0 && endsComparison token) = true) :
    step d (frame, outer) token = some (frame.push token, outer) := by
  have hfresh : frame.isFresh = false := by
    simp [Frame.isFresh, hbegun]
  by_cases hdepth : 0 < frame.depth
  · simp [step, hdepth]
  · have hzero : frame.depth = 0 := Nat.eq_zero_of_not_pos hdepth
    simp only [hzero, decide_true, Bool.true_and, endsComparison, Bool.or_eq_true, not_or,
      decide_eq_true_eq, Bool.not_eq_true] at htoken
    obtain ⟨⟨⟨hand, hor⟩, hbetween⟩, hclose⟩ := htoken
    simp [step, hzero, hand, hor, hbetween, hclose, hfresh, hgroup, hrange, Frame.push]

/-- Tokens inside of a comparison that has been begun are put to it. -/
theorem run_of_depthAfter? {ts : List Token} {depth : Nat} (hgroup : frame.group = none)
    (hbegun : frame.comparison ≠ []) (hrange : frame.inRange = false)
    (hts : depthAfter? frame.depth ts = some depth) :
    run d ts (frame, outer) =
      .ok ({ frame with comparison := ts.reverse ++ frame.comparison, depth := depth }, outer) := by
  induction ts generalizing frame with
  | nil =>
      obtain rfl := Option.some.inj hts
      rfl
  | cons token ts ih =>
      rw [depthAfter?] at hts
      split at hts
      · cases hts
      · next htoken =>
          have hgroup' : (frame.push token).group = none := hgroup
          have hbegun' : (frame.push token).comparison ≠ [] := List.cons_ne_nil _ _
          rw [run, step_push hgroup hbegun hrange htoken]
          show run d ts (frame.push token, outer) = _
          rw [ih hgroup' hbegun' hrange hts, List.reverse_cons, List.append_assoc]
          rfl

/-- Whether a comparison may begin with a token. -/
def mayBegin (token : Token) : Bool :=
  !endsComparison token && !token.isKeyword "NOT" && token ≠ .sign "("

/-- Tokens of a comparison, where a formula has to start. -/
theorem run_start {token : Token} {ts : List Token} {depth : Nat} (hbegins : mayBegin token = true)
    (hts : depthAfter? 0 ts = some depth) (disjunction conjunction : Option F) :
    run d (token :: ts) (start disjunction conjunction, outer) =
      .ok ({ start disjunction conjunction with
        comparison := (token :: ts).reverse, depth := depth }, outer) := by
  simp only [mayBegin, endsComparison, Bool.and_eq_true, Bool.not_eq_true', Bool.or_eq_false_iff,
    decide_eq_true_eq, decide_eq_false_iff_not] at hbegins
  obtain ⟨⟨⟨⟨⟨hand, hor⟩, hbetween⟩, hclose⟩, hnot⟩, hopen⟩ := hbegins
  have hstep : step d (start disjunction conjunction, outer) token =
      some ((start disjunction conjunction).push token, outer) := by
    simp [step, start, hand, hor, hbetween, hclose, hnot, hopen, Frame.push]
  have hpush : ((start disjunction conjunction).push token).comparison ≠ [] := List.cons_ne_nil _ _
  have hdepth : ((start disjunction conjunction).push token).depth = 0 := by
    simp [Frame.push, start, hopen, hclose]
  rw [run, hstep]
  show run d ts ((start disjunction conjunction).push token, outer) = _
  rw [run_of_depthAfter? rfl hpush rfl (hdepth ▸ hts), List.reverse_cons]
  rfl

/-- `Balanced ts` holds if the tokens can stand inside of a comparison, with as many parentheses
open after them as before. -/
def Balanced (ts : List Token) : Prop := ∀ depth, depthAfter? depth ts = some depth

theorem Balanced.append {ts us : List Token} (hts : Balanced ts) (hus : Balanced us) :
    Balanced (ts ++ us) := by
  intro depth
  rw [depthAfter?_append, hts depth]
  exact hus depth

theorem balanced_nil : Balanced [] := fun _ => rfl

theorem balanced_token {token : Token} (hends : endsComparison token = false)
    (hopen : token ≠ .sign "(") : Balanced [token] := by
  intro depth
  have hclose : token ≠ .sign ")" := by
    rintro rfl
    cases hends
  simp [depthAfter?, hends, hopen, hclose]

theorem Balanced.parentheses {ts : List Token} (hts : Balanced ts) :
    Balanced (.sign "(" :: (ts ++ [.sign ")"])) := by
  intro depth
  have hopen : endsComparison (.sign "(") = false := by decide
  rw [depthAfter?, hopen, Bool.and_false, if_neg Bool.false_ne_true, if_pos rfl,
    depthAfter?_append, hts (depth + 1)]
  simp [depthAfter?]

/-- A comparison is a unit. -/
theorem settles_of_balanced {ts : List Token} {f : F} (hbegins : ts.head?.any mayBegin = true)
    (hbalanced : Balanced ts) (hread : d.comparison ts = some f) : Settles d ts f := by
  cases ts with
  | nil => cases hbegins
  | cons token ts =>
      have hdepth := hbalanced 0
      have htoken : mayBegin token = true := hbegins
      simp only [mayBegin, Bool.and_eq_true, Bool.not_eq_true', decide_eq_true_eq] at htoken
      obtain ⟨⟨hends, -⟩, hopen⟩ := htoken
      have hclose : token ≠ .sign ")" := by
        rintro rfl
        cases hends
      rw [depthAfter?, hends, Bool.and_false, if_neg Bool.false_ne_true, if_neg hopen,
        if_neg hclose] at hdepth
      intro disjunction conjunction outer
      refine ⟨_, run_start hbegins hdepth disjunction conjunction, rfl, rfl, rfl, ?_, rfl, rfl⟩
      show (if 0 = 0 then d.comparison (token :: ts).reverse.reverse else none) = some f
      rw [if_pos rfl, List.reverse_reverse]
      exact hread

/-! ## Comparisons that cannot be read -/

theorem formula?_of_unreadable (hgroup : frame.group = none)
    (h : d.comparison frame.comparison.reverse = none) :
    frame.conjunctionOf? d = none ∧ frame.formula? d = none := by
  have hoperand : frame.operand? d =
      if frame.depth = 0 then d.comparison frame.comparison.reverse else none := by
    rw [Frame.operand?, hgroup]
  rw [h, ite_self] at hoperand
  have hconjunction : frame.conjunctionOf? d = none := by
    rw [Frame.conjunctionOf?, hoperand]
    rfl
  refine ⟨hconjunction, ?_⟩
  rw [Frame.formula?, hconjunction]
  rfl

/-- What cannot be read yet can only be continued. -/
theorem step_of_unreadable {token : Token} (hgroup : frame.group = none)
    (hfresh : frame.isFresh = true → token.isKeyword "NOT" = false ∧ token ≠ .sign "(")
    (h : d.comparison frame.comparison.reverse = none) :
    step d (frame, outer) token = none ∨ ∃ inRange, step d (frame, outer) token =
      some ({ frame.push token with inRange := inRange }, outer) := by
  obtain ⟨hconjunction, hformula⟩ := formula?_of_unreadable hgroup h
  by_cases hdepth : 0 < frame.depth
  · exact .inr ⟨frame.inRange, if_pos hdepth⟩
  by_cases hand : token.isKeyword "AND" = true
  · cases hrange : frame.inRange with
    | true => exact .inr ⟨false, by simp [step, hdepth, hand, hrange]⟩
    | false => exact .inl (by simp [step, hdepth, hand, hrange, Frame.afterAnd?, hconjunction])
  by_cases hor : token.isKeyword "OR" = true
  · exact .inl (by simp [step, hdepth, hand, hor, Frame.afterOr?, hformula])
  by_cases hclose : token = .sign ")"
  · refine .inl ?_
    cases outer with
    | nil => simp [step, hdepth, hclose, isKeyword_sign]
    | cons parent outer => simp [step, hdepth, hclose, isKeyword_sign, hformula]
  · refine .inr ⟨token.isKeyword "BETWEEN" || frame.inRange, ?_⟩
    cases hisFresh : frame.isFresh with
    | true => simp [step, hdepth, hand, hor, hisFresh, hfresh hisFresh, hclose, hgroup]
    | false => simp [step, hdepth, hand, hor, hisFresh, hclose, hgroup]

/-- No formula comes of a comparison that cannot be read, as far as one looks ahead. -/
theorem conclude_of_unreadable {us : List Token} (hgroup : frame.group = none)
    (hbegun : frame.comparison ≠ [])
    (h : ∀ k, d.comparison (frame.comparison.reverse ++ us.take k) = none) (f : F) :
    conclude d us (frame, outer) ≠ .ok f := by
  induction us generalizing frame with
  | nil =>
      have hread := h 0
      rw [List.take_nil, List.append_nil] at hread
      obtain ⟨-, hformula⟩ := formula?_of_unreadable hgroup hread
      intro hok
      rw [(conclude_nil_eq_ok_iff.1 hok).1] at hformula
      cases hformula
  | cons token us ih =>
      have hread := h 0
      rw [List.take_zero, List.append_nil] at hread
      have hfresh : frame.isFresh = false := by
        simp [Frame.isFresh, hbegun]
      have hcontinues : frame.isFresh = true →
          token.isKeyword "NOT" = false ∧ token ≠ .sign "(" := by
        rw [hfresh]
        exact nofun
      rcases step_of_unreadable hgroup hcontinues hread with hstep | ⟨inRange, hstep⟩
      · exact conclude_cons_of_none hstep us f
      · rw [conclude_cons hstep]
        refine @ih { frame.push token with inRange := inRange } hgroup (List.cons_ne_nil _ _) ?_
        intro k
        have hnext := h (k + 1)
        rw [List.take_succ_cons] at hnext
        show d.comparison ((token :: frame.comparison).reverse ++ us.take k) = none
        rwa [List.reverse_cons, List.append_assoc]

end Comparisons

end TableQuery.Sql
