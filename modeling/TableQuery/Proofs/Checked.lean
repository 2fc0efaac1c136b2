import Mathlib.Data.List.Forall2

/-!
# Checked computations

Everything a client sends is read by computations in `Except` that stop at the first fault.  These
lemmas take a successful one apart: a sequence succeeds exactly if each of its steps does, and a
traversal exactly if it does at every element.  Where it also matters how a computation fails,
`Gives` says what may come of it in either case, and `fault?` which fault it ends in.
-/

namespace TableQuery.Checked

variable {ε α β γ δ : Type}

/-- A sequence succeeds exactly if both of its steps do. -/
theorem bind_eq_ok_iff {x : Except ε α} {f : α → Except ε β} {b : β} :
    (x >>= f) = .ok b ↔ ∃ a, x = .ok a ∧ f a = .ok b := by
  cases x with
  | error e => simp [bind, Except.bind]
  | ok a => simp [bind, Except.bind]

/-- A changed result comes of the result that is changed. -/
theorem map_eq_ok_iff {x : Except ε α} {f : α → β} {b : β} :
    x.map f = .ok b ↔ ∃ a, x = .ok a ∧ f a = b := by
  cases x <;> simp [Except.map]

/-- A traversal succeeds exactly if it does at every element. -/
theorem mapM_eq_ok_iff {f : α → Except ε β} {as : List α} {bs : List β} :
    as.mapM f = .ok bs ↔ List.Forall₂ (fun a b => f a = .ok b) as bs := by
  induction as generalizing bs with
  | nil =>
      rw [List.mapM_nil, List.forall₂_nil_left_iff]
      exact ⟨fun h => (Except.ok.inj h).symm, fun h => h ▸ rfl⟩
  | cons a as ih =>
      rw [List.mapM_cons, bind_eq_ok_iff]
      constructor
      · rintro ⟨b, hb, h⟩
        obtain ⟨rest, hrest, h⟩ := bind_eq_ok_iff.1 h
        obtain rfl := Except.ok.inj h
        exact .cons hb (ih.1 hrest)
      · rintro (_ | ⟨hb, hrest⟩)
        exact ⟨_, hb, bind_eq_ok_iff.2 ⟨_, ih.2 hrest, rfl⟩⟩

/-- An optional step succeeds exactly if there is nothing to do or the step does. -/
theorem optionMapM_eq_ok_iff {f : α → Except ε β} {a? : Option α} {b? : Option β} :
    a?.mapM f = .ok b? ↔ Option.Rel (fun a b => f a = .ok b) a? b? := by
  cases a? with
  | none =>
      constructor
      · intro h
        obtain rfl := Except.ok.inj h
        exact .none
      · rintro ⟨⟩
        rfl
  | some a =>
      rw [Option.mapM_some, ← bind_pure_comp, bind_eq_ok_iff]
      constructor
      · rintro ⟨b, hb, h⟩
        obtain rfl := Except.ok.inj h
        exact .some hb
      · rintro (hb | _)
        exact ⟨_, hb, rfl⟩

/-- What each step keeps, a traversal keeps of the whole list. -/
theorem map_of_mapM_eq_ok {f : α → Except ε β} {g : α → γ} {h : β → γ} {as : List α} {bs : List β}
    (hmapM : as.mapM f = .ok bs) (hstep : ∀ a b, f a = .ok b → h b = g a) :
    bs.map h = as.map g := by
  rw [mapM_eq_ok_iff] at hmapM
  induction hmapM with
  | nil => rfl
  | cons hab _ ih => rw [List.map_cons, List.map_cons, hstep _ _ hab, ih]

/-- What corresponds to an element of the first list. -/
theorem exists_mem_right {R : α → β → Prop} {as : List α} {bs : List β} (h : List.Forall₂ R as bs)
    {a : α} (ha : a ∈ as) : ∃ b ∈ bs, R a b := by
  induction h with
  | nil => exact absurd ha List.not_mem_nil
  | @cons a' b as bs hab _ ih =>
      rcases List.mem_cons.1 ha with rfl | ha
      · exact ⟨b, List.mem_cons_self, hab⟩
      · obtain ⟨b', hb', hR⟩ := ih ha
        exact ⟨b', List.mem_cons_of_mem b hb', hR⟩

/-- What corresponds to an element of the second list. -/
theorem exists_mem_left {R : α → β → Prop} {as : List α} {bs : List β} (h : List.Forall₂ R as bs)
    {b : β} (hb : b ∈ bs) : ∃ a ∈ as, R a b := exists_mem_right h.flip hb

/-! ## What may come of a computation -/

/-- `Gives p q x` holds if a result of the computation `x` satisfies `p`, and a fault `q`. -/
def Gives (p : α → Prop) (q : ε → Prop) : Except ε α → Prop
  | .ok a => p a
  | .error e => q e

section Gives

variable {p p' : α → Prop} {q q' : ε → Prop} {r : β → Prop}

theorem Gives.imp {x : Except ε α} (h : Gives p q x) (hp : ∀ a, p a → p' a)
    (hq : ∀ e, q e → q' e) : Gives p' q' x := by
  cases x with
  | error e => exact hq e h
  | ok a => exact hp a h

theorem Gives.faults {x : Except ε α} (h : Gives p q x) : Gives (fun _ => True) q x :=
  h.imp (fun _ _ => trivial) fun _ => id

theorem Gives.map {x : Except ε α} {f : α → β} (hx : Gives p q x) (hf : ∀ a, p a → r (f a)) :
    Gives r q (x.map f) := by
  cases x with
  | error e => exact hx
  | ok a => exact hf a hx

/-- A sequence gives what its second step gives for any first result. -/
theorem Gives.bind {x : Except ε α} {f : α → Except ε β} (hx : Gives p q x)
    (hf : ∀ a, p a → Gives r q (f a)) : Gives r q (x >>= f) := by
  cases x with
  | error e => exact hx
  | ok a => exact hf a hx

/-- A traversal gives at every element what its step gives. -/
theorem gives_mapM {f : α → Except ε β} {as : List α} (h : ∀ a ∈ as, Gives r q (f a)) :
    Gives (fun bs => ∀ b ∈ bs, r b) q (as.mapM f) := by
  induction as with
  | nil => exact fun _ hb => absurd hb List.not_mem_nil
  | cons a as ih =>
      rw [List.mapM_cons]
      refine (h a List.mem_cons_self).bind fun b hb => ?_
      refine (ih fun a ha => h a (List.mem_cons_of_mem _ ha)).bind fun bs hbs => ?_
      exact List.forall_mem_cons.2 ⟨hb, hbs⟩

theorem gives_optionMapM {f : α → Except ε β} {a? : Option α} (h : ∀ a ∈ a?, Gives r q (f a)) :
    Gives (fun b? => ∀ b ∈ b?, r b) q (a?.mapM f) := by
  cases a? with
  | none => exact fun _ hb => absurd hb (Option.not_mem_none _)
  | some a =>
      rw [Option.mapM_some, ← bind_pure_comp]
      refine (h a rfl).bind fun b hb => ?_
      rintro _ ⟨⟩
      exact hb

end Gives

/-! ## The fault of a computation -/

/-- The fault of a computation, if it ends in one. -/
def fault? : Except ε α → Option ε
  | .ok _ => none
  | .error e => some e

theorem fault?_eq_some_iff {x : Except ε α} {e : ε} : fault? x = some e ↔ x = .error e := by
  cases x <;> simp [fault?]

theorem fault?_eq_none_iff {x : Except ε α} : fault? x = none ↔ ∃ a, x = .ok a := by
  cases x <;> simp [fault?]

/-- A sequence ends in the fault of its first step, and without one in the fault of its second step;
here that is the same for all results of the first. -/
theorem fault?_bind {x : Except ε α} {f : α → Except ε β} {next : Option ε}
    (hf : ∀ a, x = .ok a → fault? (f a) = next) : fault? (x >>= f) = (fault? x).or next := by
  cases x with
  | error e => rfl
  | ok a => exact hf a rfl

/-- A sequence whose second step does not fail ends in the fault of its first step. -/
theorem fault?_bind_of_total {x : Except ε α} {f : α → Except ε β}
    (hf : ∀ a, fault? (f a) = none) : fault? (x >>= f) = fault? x := by
  rw [fault?_bind fun a _ => hf a, Option.or_none]

/-- A traversal ends in the first fault of its steps. -/
theorem fault?_mapM (f : α → Except ε β) (as : List α) :
    fault? (as.mapM f) = as.findSome? fun a => fault? (f a) := by
  induction as with
  | nil => rfl
  | cons a as ih =>
      have hrest : ∀ b, f a = .ok b → fault? (as.mapM f >>= fun bs => pure (b :: bs)) =
          as.findSome? fun a => fault? (f a) := by
        intro b _
        rw [← ih]
        exact fault?_bind_of_total fun _ => rfl
      rw [List.mapM_cons, fault?_bind hrest, List.findSome?_cons]
      cases fault? (f a) <;> rfl

/-- An optional step ends in the fault of the step. -/
theorem fault?_optionMapM {f : α → Except ε β} {a? : Option α} :
    fault? (a?.mapM f) = a?.bind fun a => fault? (f a) := by
  cases a? with
  | none => rfl
  | some a =>
      rw [Option.mapM_some, ← bind_pure_comp, fault?_bind_of_total fun _ => rfl]
      rfl

/-! ## Results that agree up to a function -/

/-- Sequences agree if their first steps do, and their second ones wherever they go on from first
results that agree.  Faults agree only if they are the same. -/
theorem map_bind_congr {x y : Except ε α} {f g : α → Except ε β} {h : α → γ} {k : β → δ}
    (hxy : x.map h = y.map h) (hfg : ∀ a b, h a = h b → (f a).map k = (g b).map k) :
    (x >>= f).map k = (y >>= g).map k := by
  cases x with
  | error e =>
      cases y with
      | error e' => exact congrArg Except.error (Except.error.inj hxy)
      | ok b => cases hxy
  | ok a =>
      cases y with
      | error e' => cases hxy
      | ok b => exact hfg a b (Except.ok.inj hxy)

/-- Traversals agree if their steps agree at every element. -/
theorem map_mapM_congr {f g : α → Except ε β} {h : β → γ} {as : List α}
    (hfg : ∀ a ∈ as, (f a).map h = (g a).map h) :
    (as.mapM f).map (List.map h) = (as.mapM g).map (List.map h) := by
  induction as with
  | nil => rfl
  | cons a as ih =>
      rw [List.mapM_cons, List.mapM_cons]
      refine map_bind_congr (hfg a List.mem_cons_self) fun b b' hb => ?_
      refine map_bind_congr (ih fun a ha => hfg a (List.mem_cons_of_mem _ ha)) fun bs bs' hbs => ?_
      exact congrArg Except.ok (congrArg₂ List.cons hb hbs)

/-- Traversals are the same if their steps are at corresponding elements. -/
theorem mapM_congr_of_forall₂ {f : α → Except ε β} {as bs : List α}
    (h : List.Forall₂ (fun a b => f a = f b) as bs) : as.mapM f = bs.mapM f := by
  induction h with
  | nil => rfl
  | cons hab _ ih => rw [List.mapM_cons, List.mapM_cons, hab, ih]

/-- Results that agree are both faults, and the same one, or both values that agree. -/
theorem map_eq_map_iff {x y : Except ε α} {h : α → γ} :
    x.map h = y.map h ↔ (∃ e, x = .error e ∧ y = .error e) ∨
      ∃ a b, x = .ok a ∧ y = .ok b ∧ h a = h b := by
  cases x <;> cases y <;> simp [Except.map, eq_comm]

end TableQuery.Checked
