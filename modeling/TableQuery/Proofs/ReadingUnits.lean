import TableQuery.Proofs.Checked
import TableQuery.Sql.Reader

/-!
# Units of a reading

A condition is read token by token, with a frame for each open parenthesis.  A *unit* is a sequence
of tokens that is read in the same way wherever a formula may start: it leaves the frame as it was,
but for the formula that has just been read.  Anything in parentheses is a unit if it is read on its
own, whatever joins it has inside.  Units joined by `AND`, or by `OR`, are read from left to right
as the join of their formulas.

A sequence of tokens may also stall: wherever it starts, no formula comes out, whatever follows.
A join in which one unit stalls does so itself.

## Main results

* `Settles`, `Completes`, `Stalls`, `StandsAlone` — what can become of some tokens.
* `step_cases` — what a token does.
* `completes_of_formulaOf`, `Completes.parentheses` — what is read on its own is a unit in
  parentheses.
* `joined_completes`, `joined_stalls` — joins of units.
-/

namespace TableQuery.Sql

variable {F : Type} {d : Dialect F}

/-! ## Reading on -/

/-- The formula that the rest of a text gives, read on from some frames. -/
def conclude (d : Dialect F) (ts : List Token) (frames : Frames F) : Except DatabaseFault F := do
  let (frame, outer) ← run d ts frames
  match frame.formula? d, outer with
  | some formula, [] => .ok formula
  | _, _ => .error .incomplete

theorem formulaOf_eq_conclude (ts : List Token) : formulaOf d ts = conclude d ts ({}, []) := rfl

theorem run_append (ts us : List Token) (frames : Frames F) :
    run d (ts ++ us) frames = run d ts frames >>= run d us := by
  induction ts generalizing frames with
  | nil => rfl
  | cons token ts ih =>
      rw [List.cons_append, run, run]
      cases step d frames token with
      | none => rfl
      | some next => exact ih next

theorem conclude_append {ts : List Token} {frames next : Frames F} (h : run d ts frames = .ok next)
    (us : List Token) : conclude d (ts ++ us) frames = conclude d us next := by
  rw [conclude, run_append, h]
  rfl

theorem conclude_cons {token : Token} {frames next : Frames F} (h : step d frames token = some next)
    (us : List Token) : conclude d (token :: us) frames = conclude d us next := by
  rw [conclude, run, h]
  rfl

/-- No formula comes of a token that cannot stand in its place. -/
theorem conclude_cons_of_none {token : Token} {frames : Frames F} (h : step d frames token = none)
    (us : List Token) (f : F) : conclude d (token :: us) frames ≠ .ok f := by
  rw [conclude, run, h]
  exact nofun

theorem conclude_of_run {ts : List Token} {frames next : Frames F}
    (h : run d ts frames = .ok next) :
    conclude d ts frames = conclude d [] next := by
  rw [← conclude_append h [], List.append_nil]

/-- At the end of a text, a formula comes out if all that has been read is one. -/
theorem conclude_nil_eq_ok_iff {frame : Frame F} {outer : List (Frame F)} {f : F} :
    conclude d [] (frame, outer) = .ok f ↔ frame.formula? d = some f ∧ outer = [] := by
  constructor
  · intro h
    obtain ⟨_, hrun, hlast⟩ := Checked.bind_eq_ok_iff.1 h
    obtain rfl := Except.ok.inj hrun
    dsimp only at hlast
    split at hlast
    · next g hformula =>
        rw [hformula, Except.ok.inj hlast]
        exact ⟨rfl, rfl⟩
    · cases hlast
  · intro h
    obtain ⟨hformula, rfl⟩ := h
    refine Checked.bind_eq_ok_iff.2 ⟨_, rfl, ?_⟩
    dsimp only
    rw [hformula]

/-! ## Units -/

/-- A frame in which a formula has to start, with what has been joined before it. -/
def start (disjunction conjunction : Option F) : Frame F :=
  { disjunction := disjunction, conjunction := conjunction }

/-- A frame in which a formula has just been read, after what has been joined before it. -/
structure Frame.Ends (d : Dialect F) (frame : Frame F) (disjunction conjunction : Option F)
    (f : F) : Prop where
  disjunction_eq : frame.disjunction = disjunction
  conjunction_eq : frame.conjunction = conjunction
  negations_eq : frame.negations = 0
  operand?_eq : frame.operand? d = some f
  depth_eq : frame.depth = 0
  inRange_eq : frame.inRange = false

/-- `Settles d ts f` holds if the tokens are a unit that is read as `f`. -/
def Settles (d : Dialect F) (ts : List Token) (f : F) : Prop :=
  ∀ disjunction conjunction outer, ∃ frame, run d ts (start disjunction conjunction, outer) =
    .ok (frame, outer) ∧ frame.Ends d disjunction conjunction f

/-- `Completes d ts f` holds if the tokens are read as `f`, inside of parentheses or not. -/
def Completes (d : Dialect F) (ts : List Token) (f : F) : Prop :=
  ∀ outer, ∃ frame, run d ts ({}, outer) = .ok (frame, outer) ∧ frame.depth = 0 ∧
    frame.formula? d = some f

/-- `Stalls d ts` holds if no formula comes of the tokens, wherever they start and whatever follows
them. -/
def Stalls (d : Dialect F) (ts : List Token) : Prop :=
  ∀ disjunction conjunction outer us f,
    conclude d (ts ++ us) (start disjunction conjunction, outer) ≠ .ok f

/-- `StandsAlone d ts` holds if nothing around the tokens changes what becomes of them: they are a
unit, or they stall. -/
def StandsAlone (d : Dialect F) (ts : List Token) : Prop := (∃ f, Settles d ts f) ∨ Stalls d ts

section Units

variable {frame : Frame F} {disjunction conjunction : Option F} {f g : F}
  {ts : List Token}

/-- All that has been read when a formula has just been read. -/
def total (d : Dialect F) (disjunction conjunction : Option F) (f : F) : F :=
  Frame.joinAfter d .any disjunction (Frame.joinAfter d .all conjunction f)

theorem Frame.Ends.formula?_eq (h : frame.Ends d disjunction conjunction f) :
    frame.formula? d = some (total d disjunction conjunction f) := by
  rw [Frame.formula?, Frame.conjunctionOf?, h.operand?_eq, h.negations_eq, h.disjunction_eq,
    h.conjunction_eq]
  rfl

theorem Settles.completes (h : Settles d ts f) : Completes d ts f := by
  intro outer
  obtain ⟨frame, hrun, hends⟩ := h none none outer
  exact ⟨frame, hrun, hends.depth_eq, hends.formula?_eq⟩

theorem Completes.formulaOf_eq (h : Completes d ts f) : formulaOf d ts = .ok f := by
  obtain ⟨frame, hrun, -, hformula⟩ := h []
  rw [formulaOf_eq_conclude, conclude_of_run hrun]
  exact conclude_nil_eq_ok_iff.2 ⟨hformula, rfl⟩

theorem Stalls.formulaOf_ne (h : Stalls d ts) (f : F) : formulaOf d ts ≠ .ok f := by
  have hts := h none none [] [] f
  rwa [List.append_nil] at hts

/-! ## Parentheses -/

theorem isKeyword_sign (keyword text : String) : (Token.sign text).isKeyword keyword = false := rfl

theorem step_open (disjunction conjunction : Option F) (outer : List (Frame F)) :
    step d (start disjunction conjunction, outer) (.sign "(") =
      some ({}, start disjunction conjunction :: outer) := rfl

/-- A parenthesis that closes what has been read inside it. -/
theorem step_close {parent : Frame F} {outer : List (Frame F)} (hdepth : frame.depth = 0)
    (hformula : frame.formula? d = some f) :
    step d (frame, parent :: outer) (.sign ")") =
      some ({ parent with group := some f }, outer) := by
  simp [step, hdepth, isKeyword_sign, hformula]

theorem ends_group (d : Dialect F) (disjunction conjunction : Option F) (f : F) :
    { start disjunction conjunction with group := some f }.Ends d disjunction conjunction f :=
  ⟨rfl, rfl, rfl, rfl, rfl, rfl⟩

/-- What is read on its own is a unit in parentheses. -/
theorem Completes.parentheses (h : Completes d ts f) :
    Settles d (.sign "(" :: (ts ++ [.sign ")"])) f := by
  intro disjunction conjunction outer
  obtain ⟨frame, hrun, hdepth, hformula⟩ := h (start disjunction conjunction :: outer)
  refine ⟨_, ?_, ends_group d disjunction conjunction f⟩
  rw [run, step_open]
  show run d (ts ++ [.sign ")"]) ({}, start disjunction conjunction :: outer) = _
  rw [run_append, hrun]
  show run d [.sign ")"] (frame, start disjunction conjunction :: outer) = _
  rw [run, step_close hdepth hformula]
  rfl

theorem Stalls.parentheses (h : Stalls d ts) : Stalls d (.sign "(" :: (ts ++ [.sign ")"])) := by
  intro disjunction conjunction outer us f
  rw [List.cons_append, conclude_cons (step_open _ _ _), List.append_assoc]
  exact h none none _ _ f

end Units

/-! ## Reading inside of parentheses -/

/-- What a token does: the innermost frame is another one, or a parenthesis is opened, or one is
closed.  Nothing of it depends on the frames further out. -/
theorem step_cases {frame next : Frame F} {outer left : List (Frame F)} {token : Token}
    (h : step d (frame, outer) token = some (next, left)) :
    (left = outer ∧ (next.comparison = [] → next.depth = 0) ∧
      ∀ further, step d (frame, further) token = some (next, further)) ∨
    (left = frame :: outer ∧ next = {} ∧ frame.depth = 0 ∧
      ∀ further, step d (frame, further) token = some ({}, frame :: further)) ∨
    ∃ parent f, outer = parent :: left ∧ next = { parent with group := some f } ∧
      ∀ further, step d (frame, parent :: further) token = some (next, further) := by
  have hstays : ∀ frame' : Frame F, (frame'.comparison = [] → frame'.depth = 0) →
      (∀ further, step d (frame, further) token = some (frame', further)) →
      left = outer ∧ (next.comparison = [] → next.depth = 0) ∧
        ∀ further, step d (frame, further) token = some (next, further) := by
    intro frame' hdepth hstep
    obtain ⟨rfl, rfl⟩ := Prod.mk.inj (Option.some.inj (h.symm.trans (hstep outer)))
    exact ⟨rfl, hdepth, hstep⟩
  by_cases hdepth : 0 < frame.depth
  · exact .inl (hstays (frame.push token) nofun fun further => if_pos hdepth)
  have hzero : frame.depth = 0 := Nat.eq_zero_of_not_pos hdepth
  by_cases hand : token.isKeyword "AND" = true
  · cases hrange : frame.inRange with
    | true =>
        exact .inl (hstays { frame.push token with inRange := false } nofun
          fun further => by simp [step, hdepth, hand, hrange])
    | false =>
        cases hafter : frame.afterAnd? d with
        | none => simp [step, hdepth, hand, hrange, hafter] at h
        | some after =>
            refine .inl (hstays after ?_ fun further => by
              simp [step, hdepth, hand, hrange, hafter])
            obtain ⟨f, -, hf⟩ := Option.bind_eq_some_iff.1 hafter
            obtain rfl := Option.some.inj hf
            exact fun _ => rfl
  by_cases hor : token.isKeyword "OR" = true
  · cases hafter : frame.afterOr? d with
    | none => simp [step, hdepth, hand, hor, hafter] at h
    | some after =>
        refine .inl (hstays after ?_ fun further => by
          simp [step, hdepth, hand, hor, hafter])
        obtain ⟨f, -, hf⟩ := Option.bind_eq_some_iff.1 hafter
        obtain rfl := Option.some.inj hf
        exact fun _ => rfl
  by_cases hnot : (frame.isFresh && token.isKeyword "NOT") = true
  · exact .inl (hstays { frame with negations := frame.negations + 1 } (fun _ => hzero)
      fun further => by simp [step, hdepth, hand, hor, hnot])
  by_cases hopen : (frame.isFresh && token = .sign "(") = true
  · have hstep : ∀ further, step d (frame, further) token = some ({}, frame :: further) := by
      intro further
      simp [step, hdepth, hand, hor, hnot, hopen]
    obtain ⟨rfl, rfl⟩ := Prod.mk.inj (Option.some.inj (h.symm.trans (hstep outer)))
    exact .inr (.inl ⟨rfl, rfl, hzero, hstep⟩)
  by_cases hclose : token = .sign ")"
  · have hstep : ∀ parent further, step d (frame, parent :: further) token =
        (frame.formula? d).map fun f => ({ parent with group := some f }, further) := by
      intro parent further
      simp [step, hdepth, hclose, isKeyword_sign]
    cases outer with
    | nil => simp [step, hdepth, hclose, isKeyword_sign] at h
    | cons parent outer =>
        rw [hstep] at h
        obtain ⟨f, hf, heq⟩ := Option.map_eq_some_iff.1 h
        obtain ⟨rfl, rfl⟩ := Prod.mk.inj heq
        refine .inr (.inr ⟨parent, f, rfl, rfl, fun further => ?_⟩)
        rw [hstep, hf]
        rfl
  · cases hgroup : frame.group with
    | some f => simp [step, hdepth, hand, hor, hnot, hopen, hclose, hgroup] at h
    | none =>
        exact .inl (hstays { frame.push token with
          inRange := token.isKeyword "BETWEEN" || frame.inRange } nofun fun further => by
            simp [step, hdepth, hand, hor, hnot, hopen, hclose, hgroup])

/-- Whether parentheses are open in the comparisons of frames only where these have been begun. -/
def Sound (frames : Frames F) : Prop :=
  ∀ frame ∈ frames.1 :: frames.2, frame.comparison = [] → frame.depth = 0

theorem sound_step {frame next : Frame F} {outer left : List (Frame F)} {token : Token}
    (hsound : Sound (frame, outer)) (h : step d (frame, outer) token = some (next, left)) :
    Sound (next, left) := by
  obtain ⟨hframe, houter⟩ := List.forall_mem_cons.1 hsound
  rcases step_cases h with ⟨rfl, hnext, -⟩ | ⟨rfl, rfl, hdepth, -⟩ | ⟨parent, f, rfl, rfl, -⟩
  · exact List.forall_mem_cons.2 ⟨hnext, houter⟩
  · exact List.forall_mem_cons.2 ⟨fun _ => rfl, hsound⟩
  · obtain ⟨hparent, hleft⟩ := List.forall_mem_cons.1 houter
    exact List.forall_mem_cons.2 ⟨hparent, hleft⟩

/-- What is inside of further parentheses is read in the same way. -/
theorem run_further {ts : List Token} {frame last : Frame F} {outer left : List (Frame F)}
    (hsound : Sound (frame, outer)) (h : run d ts (frame, outer) = .ok (last, left)) :
    Sound (last, left) ∧
      ∀ further, run d ts (frame, outer ++ further) = .ok (last, left ++ further) := by
  induction ts generalizing frame outer with
  | nil =>
      obtain ⟨rfl, rfl⟩ := Prod.mk.inj (Except.ok.inj h)
      exact ⟨hsound, fun _ => rfl⟩
  | cons token ts ih =>
      rw [run] at h
      cases hstep : step d (frame, outer) token with
      | none =>
          rw [hstep] at h
          cases h
      | some next =>
          rw [hstep] at h
          obtain ⟨next, inner⟩ := next
          obtain ⟨hlast, hfurther⟩ := ih (sound_step hsound hstep) h
          refine ⟨hlast, fun further => ?_⟩
          have hnext : step d (frame, outer ++ further) token = some (next, inner ++ further) := by
            rcases step_cases hstep with ⟨rfl, -, heq⟩ | ⟨rfl, rfl, -, heq⟩ |
              ⟨parent, f, rfl, -, heq⟩
            · exact heq _
            · exact heq _
            · exact heq _
          rw [run, hnext]
          exact hfurther further

/-- Parentheses are closed in a comparison that is read. -/
theorem depth_of_formula? {frame : Frame F} {f : F}
    (hsound : frame.comparison = [] → frame.depth = 0) (h : frame.formula? d = some f) :
    frame.depth = 0 := by
  obtain ⟨g, hg, -⟩ := Option.bind_eq_some_iff.1 h
  obtain ⟨operand, hoperand, -⟩ := Option.bind_eq_some_iff.1 hg
  rw [Frame.operand?] at hoperand
  split at hoperand
  · next hcomparison => exact hsound hcomparison
  · by_contra hdepth
    rw [if_neg hdepth] at hoperand
    cases hoperand
  · cases hoperand

/-- Tokens that are read on their own are read in parentheses as well. -/
theorem completes_of_formulaOf {ts : List Token} {f : F} (h : formulaOf d ts = .ok f) :
    Completes d ts f := by
  obtain ⟨⟨last, left⟩, hrun, -⟩ := Checked.bind_eq_ok_iff.1 h
  have hstart : Sound (({}, []) : Frames F) := List.forall_mem_singleton.2 fun _ => rfl
  obtain ⟨hsound, hfurther⟩ := run_further hstart hrun
  rw [formulaOf_eq_conclude, conclude_of_run hrun] at h
  obtain ⟨hformula, rfl⟩ := conclude_nil_eq_ok_iff.1 h
  exact fun outer => ⟨last, hfurther outer,
    depth_of_formula? (hsound last List.mem_cons_self) hformula, hformula⟩

/-! ## Joins -/

/-- The keyword of a join. -/
def joinToken : Junction → Token
  | .all => .word "AND"
  | .any => .word "OR"

section Joins

variable {frame : Frame F} {disjunction conjunction : Option F} {f : F}

theorem Frame.Ends.step_and (h : frame.Ends d disjunction conjunction f) (outer : List (Frame F)) :
    step d (frame, outer) (joinToken .all) =
      some (start disjunction (some (Frame.joinAfter d .all conjunction f)), outer) := by
  have hkeyword : (joinToken .all).isKeyword "AND" = true := by decide
  simp only [step, h.depth_eq, h.inRange_eq, hkeyword, Frame.afterAnd?, Frame.conjunctionOf?,
    h.operand?_eq, h.negations_eq, h.disjunction_eq, h.conjunction_eq]
  rfl

theorem Frame.Ends.step_or (h : frame.Ends d disjunction conjunction f) (outer : List (Frame F)) :
    step d (frame, outer) (joinToken .any) =
      some (start (some (total d disjunction conjunction f)) none, outer) := by
  have hand : (joinToken .any).isKeyword "AND" = false := by decide
  have hor : (joinToken .any).isKeyword "OR" = true := by decide
  simp only [step, h.depth_eq, hand, hor, Frame.afterOr?, h.formula?_eq]
  rfl

/-- After the keyword of a join a formula has to start. -/
theorem Frame.Ends.step_join (h : frame.Ends d disjunction conjunction f) (junction : Junction)
    (outer : List (Frame F)) :
    ∃ before after,
      step d (frame, outer) (joinToken junction) = some (start before after, outer) := by
  cases junction with
  | all => exact ⟨_, _, h.step_and outer⟩
  | any => exact ⟨_, _, h.step_or outer⟩

/-- The tokens of further parts of a join, each after its keyword. -/
def restTokens (junction : Junction) (rest : List (List Token)) : List Token :=
  rest.flatMap fun ts => joinToken junction :: ts

/-- The rest of a join is read from left to right. -/
theorem run_restTokens {junction : Junction} {rest : List (List Token)} {gs : List F}
    (hrest : List.Forall₂ (Settles d) rest gs) (h : frame.Ends d disjunction conjunction f)
    (hdisjunction : junction = .all → disjunction = none) (outer : List (Frame F)) :
    ∃ last before after g, run d (restTokens junction rest) (frame, outer) = .ok (last, outer) ∧
      last.Ends d before after g ∧
        total d before after g =
          gs.foldl (d.join junction) (total d disjunction conjunction f) := by
  induction hrest generalizing frame disjunction conjunction f with
  | nil => exact ⟨frame, disjunction, conjunction, f, rfl, h, rfl⟩
  | @cons ts g rest gs hts _ ih =>
      have hrun : ∀ before after, step d (frame, outer) (joinToken junction) =
          some (start before after, outer) → (junction = .all → before = none) →
          total d before after g = d.join junction (total d disjunction conjunction f) g →
          ∃ last before after g', run d (restTokens junction (ts :: rest)) (frame, outer) =
            .ok (last, outer) ∧ last.Ends d before after g' ∧ total d before after g' =
              (g :: gs).foldl (d.join junction) (total d disjunction conjunction f) := by
        intro before after hstep hbefore htotal
        obtain ⟨next, hnext, hends⟩ := hts before after outer
        obtain ⟨last, before', after', g', hlast, hends', htotal'⟩ := ih hends hbefore
        refine ⟨last, before', after', g', ?_, hends', ?_⟩
        · rw [restTokens, List.flatMap_cons, List.cons_append, run, hstep]
          show run d (ts ++ restTokens junction rest) (start before after, outer) = _
          rw [run_append, hnext]
          exact hlast
        · rw [htotal', htotal, List.foldl_cons]
      cases junction with
      | all =>
          obtain rfl := hdisjunction rfl
          exact hrun _ _ (h.step_and outer) (fun _ => rfl) rfl
      | any => exact hrun _ _ (h.step_or outer) (fun heq => nomatch heq) rfl

/-- Units that are joined are read as the join of their formulas. -/
theorem joined_completes (junction : Junction) {first : List Token} {rest : List (List Token)}
    {gs : List F} (hfirst : Settles d first f) (hrest : List.Forall₂ (Settles d) rest gs) :
    Completes d (first ++ restTokens junction rest) (gs.foldl (d.join junction) f) := by
  intro outer
  obtain ⟨frame, hrun, hends⟩ := hfirst none none outer
  obtain ⟨last, before, after, g, hlast, hends', htotal⟩ :=
    run_restTokens hrest hends (fun _ => rfl) outer
  refine ⟨last, ?_, hends'.depth_eq, ?_⟩
  · rw [run_append]
    show run d first (start none none, outer) >>= _ = _
    rw [hrun]
    exact hlast
  · rw [hends'.formula?_eq, htotal]
    rfl

/-- A join stalls if one of its parts does. -/
theorem joined_stalls (junction : Junction) {first : List Token} {rest : List (List Token)}
    (hparts : ∀ ts ∈ first :: rest, StandsAlone d ts)
    (hstalls : ∃ ts ∈ first :: rest, Stalls d ts) :
    Stalls d (first ++ restTokens junction rest) := by
  induction rest generalizing first with
  | nil =>
      obtain ⟨ts, hmem, hts⟩ := hstalls
      obtain rfl := List.mem_singleton.1 hmem
      rwa [restTokens, List.flatMap_nil, List.append_nil]
  | cons second rest ih =>
      obtain ⟨hfirst, hrest⟩ := List.forall_mem_cons.1 hparts
      intro disjunction conjunction outer us g
      rw [List.append_assoc]
      rcases hfirst with ⟨f, hfirst⟩ | hfirst
      · by_cases hsecond : ∃ ts ∈ second :: rest, Stalls d ts
        · obtain ⟨frame, hrun, hends⟩ := hfirst disjunction conjunction outer
          obtain ⟨before, after, hstep⟩ := hends.step_join junction outer
          rw [conclude_append hrun, restTokens, List.flatMap_cons, List.cons_append,
            List.cons_append, conclude_cons hstep]
          exact ih hrest hsecond before after outer us g
        · obtain ⟨ts, hmem, hts⟩ := hstalls
          rcases List.mem_cons.1 hmem with rfl | hmem
          · exact hts disjunction conjunction outer _ g
          · exact absurd ⟨ts, hmem, hts⟩ hsecond
      · exact hfirst disjunction conjunction outer _ g

end Joins

end TableQuery.Sql
