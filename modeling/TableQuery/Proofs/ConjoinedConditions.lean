import TableQuery.Proofs.Grouping
import TableQuery.Proofs.QueryCalls
import TableQuery.Proofs.ReadingAtoms

/-!
# The conditions of a query are conjoined

A query collects conditions of three kinds: compiled filters, columns set to a value, and trusted
texts, which may be joins themselves.  All of them stand in one text after `WHERE`.  Parentheses are
written by three rules: a compiled join stands in them if it is not alone, a trusted text always
does, and anything else never.  If one of them were wrong, then a condition could be read as a part
of its neighbour, and rows come out that the other conditions exclude.

The invariant is `Condition.Part`: among other conditions, a condition is a unit that is read as it
is read alone, or else no formula comes of it in either place.  An atomic condition has it, a
trusted text in parentheses has it, and a join of conditions that have it does so in parentheses.

## Main results

* `Condition.Part` — the invariant, with `part_join?` and `Filter.part_of_condition?`.
* `denotes_join?_iff` — the formula of joined conditions, by those of the conditions.
* `Select.satisfies_iff_calls` — the conditions of a query by those of its calls, in all languages
  that extend the standard one.
* `Select.Admits` — the rows that the conditions of a query leave.
* `Select.where_conjoins_calls` — these are the rows that the condition of every call accepts.
-/

namespace TableQuery

open Sql

variable {F : Type} {d : Dialect F} {p : F → Prop}

/-! ## What a text denotes -/

namespace Sql

/-- `Denotes d p text values` holds if a text with values for its placeholders is read as a formula
that has the property `p`. -/
def Denotes (d : Dialect F) (p : F → Prop) (text : String) (values : List Operand) : Prop :=
  ∃ f, readFormula d text values = .ok f ∧ p f

/-- A text accepts a row if it is read as a formula that is true for the row. -/
def Accepts (scope : Scope) (text : String) (values : List Operand) : Prop :=
  Denotes .standard (fun f => f.truth scope = some true) text values

/-- Whether a property holds of the conjunction of two formulas exactly if it holds of both. -/
def Conjunctive (d : Dialect F) (p : F → Prop) : Prop := ∀ f g, p (d.join .all f g) ↔ p f ∧ p g

theorem conjunctive_truth (scope : Scope) :
    Conjunctive .standard fun f => f.truth scope = some true := fun _ _ => Truth.and_eq_true_iff

theorem conjunctive_true : Conjunctive d fun _ => True := fun _ _ => (and_self_iff).symm

theorem Conjunctive.foldl_iff (hp : Conjunctive d p) (f : F) (fs : List F) :
    p (fs.foldl (d.join .all) f) ↔ ∀ g ∈ f :: fs, p g := by
  induction fs generalizing f with
  | nil => rw [List.foldl_nil, List.forall_mem_singleton]
  | cons g fs ih =>
      rw [List.foldl_cons, ih, List.forall_mem_cons, List.forall_mem_cons, List.forall_mem_cons,
        ← and_assoc]
      exact and_congr_left' (hp f g)

/-- A text is well-formed if it is read as a formula, and has as many placeholders as values. -/
def WellFormed (d : Dialect F) (text : String) (values : List Operand) : Prop :=
  ∃ ts f, tokens text.toList = .ok ts ∧ ts.count .placeholder = values.length ∧
    readFormula d text values = .ok f

theorem denotes_iff_of_readFormula {text : String} {values : List Operand} {f : F}
    (h : readFormula d text values = .ok f) : Denotes d p text values ↔ p f := by
  constructor
  · intro hdenotes
    obtain ⟨g, hg, hp⟩ := hdenotes
    rw [h] at hg
    rwa [Except.ok.inj hg]
  · exact fun hp => ⟨f, h, hp⟩

theorem not_denotes {text : String} {values : List Operand}
    (h : ∀ f, readFormula d text values ≠ .ok f) : ¬ Denotes d p text values := by
  intro hdenotes
  obtain ⟨f, hf, -⟩ := hdenotes
  exact h f hf

end Sql

/-! ## Parts of a join -/

namespace Condition

/-- `c.Part d ts` holds if `ts` are the tokens of a condition as a part of another one, and what is
read of them there is what is read of the condition alone. -/
structure Part (d : Dialect F) (c : Condition) (ts : List Token) : Prop where
  lexed : Lexed c.grouped c.values ts
  read : (∃ f, readFormula d c.sql c.values = .ok f ∧ Settles d ts f) ∨
    (∀ f, readFormula d c.sql c.values ≠ .ok f) ∧ Stalls d ts

theorem part_atom (hd : d.Extends) (a : Atom) : (Condition.atom a).Part d a.tokens where
  lexed := a.lexed
  read := by
    have hread : readFormula d a.sql a.values = formulaOf d a.tokens := a.lexed.readFormula_eq d
    rw [sql, values, hread]
    rcases a.standsAlone hd with ⟨f, hf⟩ | hstalls
    · exact .inl ⟨f, hf.completes.formulaOf_eq, hf⟩
    · exact .inr ⟨hstalls.formulaOf_ne, hstalls⟩

/-- A well-formed text is read in parentheses as it is read without. -/
theorem part_fragment {text : String} {vs : List Operand} (h : WellFormed d text vs) :
    ∃ ts f, (Condition.fragment ("(" ++ text ++ ")") vs).Part d ts ∧
      readFormula d text vs = .ok f ∧ readFormula d ("(" ++ text ++ ")") vs = .ok f := by
  obtain ⟨us, f, hus, hcount, hf⟩ := h
  have hlexed : Lexed text vs (bind us vs) := ⟨us, hus, hcount, rfl⟩
  have hcompletes : Completes d (bind us vs) f := by
    refine completes_of_formulaOf ?_
    rw [← hlexed.readFormula_eq, hf]
  have hsettles := hcompletes.parentheses
  have hread : readFormula d ("(" ++ text ++ ")") vs = .ok f := by
    rw [hlexed.parentheses.readFormula_eq, hsettles.completes.formulaOf_eq]
  exact ⟨_, f, ⟨hlexed.parentheses, .inl ⟨f, hread, hsettles⟩⟩, hf, hread⟩

/-! ## Joins of parts -/

theorem delimits_sqlRest (junction : Junction) (rest : List Condition) :
    Delimits (sqlRest junction rest).toList := by
  cases rest with
  | nil => exact delimits_nil
  | cons part rest =>
      rw [sqlRest, String.append_assoc]
      cases junction <;> exact delimits_append (by decide) _

/-- The separator of a join before another text is a keyword. -/
theorem lexed_separator (junction : Junction) {s : String} {vs : List Operand} {ts : List Token}
    (h : Lexed s vs ts) : Lexed (junction.separator ++ s) vs (joinToken junction :: ts) := by
  cases junction with
  | all =>
      have hword : Lexed " AND" [] [.word "AND"] := lexed_of_tokens (by cbv) (by simp)
      exact hword.append h.space (delimits_append (by decide) _)
  | any =>
      have hword : Lexed " OR" [] [.word "OR"] := lexed_of_tokens (by cbv) (by simp)
      exact hword.append h.space (delimits_append (by decide) _)

theorem lexed_sqlRest (junction : Junction) {rest : List Condition} {uss : List (List Token)}
    (h : List.Forall₂ (Part d) rest uss) :
    Lexed (sqlRest junction rest) (valuesRest rest) (restTokens junction uss) := by
  induction h with
  | nil => exact lexed_nil
  | @cons part us rest uss hpart _ ih =>
      have hrest := hpart.lexed.append ih (delimits_sqlRest junction rest)
      rw [sqlRest, valuesRest, String.append_assoc]
      exact lexed_separator junction hrest

/-- Either all parts are read, or one of them stalls. -/
theorem parts_read {parts : List Condition} {uss : List (List Token)}
    (h : List.Forall₂ (Part d) parts uss) :
    (∃ fs, List.Forall₂ (fun p f => readFormula d p.sql p.values = .ok f) parts fs ∧
      List.Forall₂ (Settles d) uss fs) ∨
    (∃ us ∈ uss, Stalls d us) ∧ ∃ p ∈ parts, ∀ f, readFormula d p.sql p.values ≠ .ok f := by
  induction h with
  | nil => exact .inl ⟨[], .nil, .nil⟩
  | @cons part us parts uss hpart _ ih =>
      rcases hpart.read with ⟨f, hf, hsettles⟩ | ⟨hnone, hstalls⟩
      · rcases ih with ⟨fs, hfs, hsettle⟩ | ⟨⟨us', hmem, hus⟩, p, hp, hnone⟩
        · exact .inl ⟨f :: fs, .cons hf hfs, .cons hsettles hsettle⟩
        · exact .inr ⟨⟨us', List.mem_cons_of_mem _ hmem, hus⟩, p, List.mem_cons_of_mem _ hp, hnone⟩
      · exact .inr ⟨⟨us, List.mem_cons_self, hstalls⟩, part, List.mem_cons_self, hnone⟩

theorem standsAlone_of_parts {parts : List Condition} {uss : List (List Token)}
    (h : List.Forall₂ (Part d) parts uss) : ∀ us ∈ uss, StandsAlone d us := by
  induction h with
  | nil => exact fun us hmem => absurd hmem List.not_mem_nil
  | cons hpart _ ih =>
      refine List.forall_mem_cons.2 ⟨?_, ih⟩
      rcases hpart.read with ⟨f, -, hsettles⟩ | ⟨-, hstalls⟩
      · exact .inl ⟨f, hsettles⟩
      · exact .inr hstalls

/-- A join of parts is read as the join of their formulas, or it stalls since one of them does. -/
theorem joined_read (junction : Junction) {first second : Condition} {rest : List Condition}
    {us : List Token} {uss : List (List Token)}
    (h : List.Forall₂ (Part d) (first :: second :: rest) (us :: uss)) :
    Lexed (Condition.joined junction first second rest).sql
        (Condition.joined junction first second rest).values (us ++ restTokens junction uss) ∧
      ((∃ f fs, List.Forall₂ (fun p f => readFormula d p.sql p.values = .ok f)
          (first :: second :: rest) (f :: fs) ∧
          Completes d (us ++ restTokens junction uss) (fs.foldl (d.join junction) f)) ∨
        Stalls d (us ++ restTokens junction uss) ∧
          ∃ p ∈ first :: second :: rest, ∀ f, readFormula d p.sql p.values ≠ .ok f) := by
  constructor
  · cases h with
    | cons hfirst hrest =>
        rw [sql_joined, values_joined]
        exact hfirst.lexed.append (lexed_sqlRest junction hrest) (delimits_sqlRest junction _)
  · rcases parts_read h with ⟨fs, hfs, hsettle⟩ | ⟨hstalls, hnone⟩
    · cases hsettle with
      | @cons _ f _ fs hf hsettle => exact .inl ⟨f, fs, hfs, joined_completes junction hf hsettle⟩
    · exact .inr ⟨joined_stalls junction (standsAlone_of_parts h) hstalls, hnone⟩

theorem exists_parts {parts : List Condition} (h : ∀ p ∈ parts, ∃ us, p.Part d us) :
    ∃ uss, List.Forall₂ (Part d) parts uss := by
  induction parts with
  | nil => exact ⟨[], .nil⟩
  | cons part parts ih =>
      obtain ⟨⟨us, hus⟩, hrest⟩ := List.forall_mem_cons.1 h
      obtain ⟨uss, huss⟩ := ih hrest
      exact ⟨us :: uss, .cons hus huss⟩

/-- Parts that are joined are a part. -/
theorem part_join? {junction : Junction} {parts : List Condition} {c : Condition}
    (hparts : ∀ p ∈ parts, ∃ us, p.Part d us) (h : join? junction parts = some c) :
    ∃ us, c.Part d us := by
  obtain ⟨uss, huss⟩ := exists_parts hparts
  cases huss with
  | nil => cases h
  | @cons first us rest uss hfirst hrest =>
      cases hrest with
      | nil =>
          obtain rfl := Option.some.inj h
          exact ⟨us, hfirst⟩
      | @cons second vs rest uss hsecond hrest =>
          obtain rfl := Option.some.inj h
          obtain ⟨hlexed, hread⟩ := joined_read junction (.cons hfirst (.cons hsecond hrest))
          refine ⟨_, hlexed.parentheses, ?_⟩
          rw [hlexed.readFormula_eq]
          rcases hread with ⟨f, fs, -, hcompletes⟩ | ⟨hstalls, -⟩
          · exact .inl ⟨_, hcompletes.formulaOf_eq, hcompletes.parentheses⟩
          · exact .inr ⟨hstalls.formulaOf_ne, hstalls.parentheses⟩

/-- A conjunction of parts denotes the conjunction of what they denote. -/
theorem denotes_join?_iff (hp : Conjunctive d p) {parts : List Condition} {c : Condition}
    (hparts : ∀ part ∈ parts, ∃ us, part.Part d us) (h : join? .all parts = some c) :
    Denotes d p c.sql c.values ↔ ∀ part ∈ parts, Denotes d p part.sql part.values := by
  obtain ⟨uss, huss⟩ := exists_parts hparts
  cases huss with
  | nil => cases h
  | @cons first us rest uss hfirst hrest =>
      cases hrest with
      | nil =>
          obtain rfl := Option.some.inj h
          rw [List.forall_mem_singleton]
      | @cons second vs rest uss hsecond hrest =>
          obtain rfl := Option.some.inj h
          obtain ⟨hlexed, hread⟩ := joined_read .all (.cons hfirst (.cons hsecond hrest))
          rcases hread with ⟨f, fs, hfs, hcompletes⟩ | ⟨hstalls, part, hmem, hnone⟩
          · have hformula := (hlexed.readFormula_eq d).trans hcompletes.formulaOf_eq
            rw [denotes_iff_of_readFormula hformula, hp.foldl_iff]
            refine (Junction.over_congr .all (hfs.imp fun part g hg => ?_)).symm
            exact denotes_iff_of_readFormula hg
          · have hnoformula := hstalls.formulaOf_ne
            rw [← hlexed.readFormula_eq] at hnoformula
            exact iff_of_false (not_denotes hnoformula) fun hall =>
              not_denotes hnone (hall part hmem)

end Condition

/-- A compiled filter is a part of the conditions that it is put to. -/
theorem Filter.part_of_condition? (hd : d.Extends) (filter : Filter) {c : Condition}
    (h : filter.condition? = .ok (some c)) : ∃ us, c.Part d us := by
  refine Filter.compiled_induction (motive := fun c _ => ∃ us, c.Part d us) ?_ ?_ filter h
  · intro name operators column atoms c _ _ hjoin
    refine Condition.part_join? (fun p hp => ?_) hjoin
    obtain ⟨a, -, rfl⟩ := List.mem_map.1 hp
    exact ⟨a.tokens, Condition.part_atom hd a⟩
  · intro junction children parts c hparts hjoin
    refine Condition.part_join? (fun p hp => ?_) hjoin
    obtain ⟨child, -, hpart⟩ := Checked.exists_mem_right hparts hp
    exact hpart

/-! ## Queries -/

namespace Select

/-- Whether a call adds a condition. -/
def Call.Adds : Call → Prop
  | filter tree => ∃ c, Filter.conditionOf? tree = .ok (some c)
  | whereEqual _ _ => True
  | whereFragment _ _ => True
  | _ => False

/-- `call.Satisfies d p` holds if the condition that a call adds, if it adds one, is read alone as a
formula that has the property `p`. -/
def Call.Satisfies (d : Dialect F) (p : F → Prop) : Call → Prop
  | filter tree => ∀ c, Filter.conditionOf? tree = .ok (some c) → Denotes d p c.sql c.values
  | whereEqual column value => Denotes d p (column ++ " = ?") [value]
  | whereFragment text values => Denotes d p text values
  | _ => True

/-- Whether the condition that a call adds, if it adds one, accepts a row when it is alone. -/
def Call.Admits (scope : Scope) (call : Call) : Prop :=
  call.Satisfies .standard fun f => f.truth scope = some true

/-- `query.Satisfies d p` holds if what stands after `WHERE`, if anything does, is read as a formula
that has the property `p`. -/
def Satisfies (d : Dialect F) (p : F → Prop) (query : Select) : Prop :=
  ∀ text, query.whereSql = " WHERE " ++ text → Denotes d p text query.values

/-- Whether a row is left by the conditions of a query: what stands after `WHERE` accepts it, if
anything does. -/
def Admits (scope : Scope) (query : Select) : Prop :=
  query.Satisfies .standard fun f => f.truth scope = some true

/-- Whether the trusted texts among some calls are well-formed. -/
def Trusted (d : Dialect F) (calls : List Call) : Prop :=
  ∀ text values, .whereFragment text values ∈ calls → WellFormed d text values

theorem whereSql_eq_empty_iff (query : Select) : query.whereSql = "" ↔ query.conditions = [] := by
  rw [whereSql, condition?, ← @Condition.join?_eq_none_iff .all]
  cases Condition.join? .all query.conditions with
  | none => simp
  | some c => simp [String.append_eq_empty_iff]

/-- What stands after `WHERE` denotes the conjunction of what the conditions denote. -/
theorem satisfies_iff (hp : Conjunctive d p) {query : Select}
    (hparts : ∀ c ∈ query.conditions, ∃ us, c.Part d us) :
    query.Satisfies d p ↔ ∀ c ∈ query.conditions, Denotes d p c.sql c.values := by
  cases hjoin : Condition.join? .all query.conditions with
  | none =>
      have hnil := Condition.join?_eq_none_iff.1 hjoin
      have hempty := query.whereSql_eq_empty_iff.2 hnil
      rw [hnil]
      refine iff_of_true (fun text htext => ?_) nofun
      rw [hempty] at htext
      exact absurd htext.symm (by simp [String.append_eq_empty_iff])
  | some c =>
      have hwhere : query.whereSql = " WHERE " ++ c.sql := by rw [whereSql, condition?, hjoin]
      have hvalues : query.values = c.values := by rw [values, condition?, hjoin]; rfl
      rw [← Condition.denotes_join?_iff hp hparts hjoin]
      constructor
      · intro hsatisfies
        rw [← hvalues]
        exact hsatisfies c.sql hwhere
      · intro hdenotes text htext
        rw [hwhere] at htext
        obtain rfl := (String.append_right_inj _).1 htext
        rwa [hvalues]

/-- `call.AddsAs d added` holds if what a call adds to a query is a list of parts that denote
together what the call does when it is alone. -/
structure Call.AddsAs (d : Dialect F) (call : Call) (added : List Condition) : Prop where
  parts : ∀ c ∈ added, ∃ us, c.Part d us
  adds : call.Adds ↔ added ≠ []
  satisfies : ∀ p, call.Satisfies d p ↔ ∀ c ∈ added, Denotes d p c.sql c.values

theorem Call.addsAs_nil {call : Call} (hadds : ¬ call.Adds) (h : ∀ p, call.Satisfies d p) :
    call.AddsAs d [] where
  parts := nofun
  adds := iff_of_false hadds fun hne => hne rfl
  satisfies p := iff_of_true (h p) nofun

theorem Call.addsAs_singleton {call : Call} {c : Condition} (hadds : call.Adds)
    (hpart : ∃ us, c.Part d us)
    (h : ∀ p, call.Satisfies d p ↔ Denotes d p c.sql c.values) : call.AddsAs d [c] where
  parts := List.forall_mem_singleton.2 hpart
  adds := iff_of_true hadds (List.cons_ne_nil _ _)
  satisfies p := by rw [List.forall_mem_singleton, h]

theorem Call.addsAs_filter (hd : d.Extends) {tree : Option Filter} {condition : Option Condition}
    (h : Filter.conditionOf? tree = .ok condition) :
    (Call.filter tree).AddsAs d condition.toList := by
  cases condition with
  | none =>
      have hnone : ∀ c, Filter.conditionOf? tree ≠ .ok (some c) := by
        intro c hc
        rw [h] at hc
        cases hc
      exact addsAs_nil (fun ⟨c, hc⟩ => hnone c hc) fun _ c hc => absurd hc (hnone c)
  | some c =>
      refine addsAs_singleton ⟨c, h⟩ ?_ fun p => ?_
      · cases tree with
        | none => cases h
        | some filter => exact filter.part_of_condition? hd h
      · constructor
        · exact fun hsatisfies => hsatisfies c h
        · intro hdenotes c' hc'
          rw [h] at hc'
          obtain rfl := Option.some.inj (Except.ok.inj hc')
          exact hdenotes

theorem Call.addsAs_whereEqual (hd : d.Extends) (column : Identifier) (value : Operand) :
    (Call.whereEqual column.name value).AddsAs d
      [.atom (.compare { column } .equal { value })] := by
  refine addsAs_singleton trivial ⟨_, Condition.part_atom hd _⟩ fun p => ?_
  have hsql : (Atom.compare { column } .equal { value }).sql = column.name ++ " = ?" := by
    show column.name ++ " " ++ "=" ++ " " ++ "?" = column.name ++ " = ?"
    simp only [String.append_assoc]
    rfl
  rw [Condition.sql, hsql]
  rfl

theorem Call.addsAs_whereFragment {text : String} {values : List Operand}
    (h : WellFormed d text values) :
    (Call.whereFragment text values).AddsAs d [.fragment ("(" ++ text ++ ")") values] := by
  obtain ⟨us, f, hpart, hf, hgrouped⟩ := Condition.part_fragment h
  refine addsAs_singleton trivial ⟨us, hpart⟩ fun p => ?_
  exact (denotes_iff_of_readFormula hf).trans (denotes_iff_of_readFormula hgrouped).symm

/-- What a call adds. -/
theorem Call.addsAs_of_conditions (hd : d.Extends) {call : Call} {added : List Condition}
    (h : call.conditions = .ok added) (htrusted : Trusted d [call]) : call.AddsAs d added := by
  cases call with
  | filter tree =>
      obtain ⟨condition, hcondition, h⟩ := Checked.bind_eq_ok_iff.1 h
      obtain rfl := Except.ok.inj h
      exact addsAs_filter hd hcondition
  | whereEqual column value =>
      obtain ⟨identifier, hcolumn, h⟩ := Checked.bind_eq_ok_iff.1 h
      obtain rfl := Except.ok.inj h
      obtain rfl := Identifier.name_of_check hcolumn
      exact addsAs_whereEqual hd identifier value
  | whereFragment text values =>
      obtain rfl := Except.ok.inj h
      exact addsAs_whereFragment (htrusted text values List.mem_cons_self)
  | _ =>
      obtain rfl := Except.ok.inj h
      exact addsAs_nil id fun _ => trivial

/-- What a sequence of calls adds to a query without conditions. -/
theorem conditions_of_run (hd : d.Extends) {start query : Select} {calls : List Call}
    (hstart : start.conditions = []) (hrun : start.run calls = .ok query)
    (htrusted : Trusted d calls) :
    (∀ c ∈ query.conditions, ∃ us, c.Part d us) ∧
      ((∃ call ∈ calls, call.Adds) ↔ query.conditions ≠ []) ∧
        ∀ p, (∀ call ∈ calls, call.Satisfies d p) ↔
          ∀ c ∈ query.conditions, Denotes d p c.sql c.values := by
  obtain ⟨added, hadded, hconditions, -⟩ := run_eq_ok hrun
  rw [hconditions, hstart, List.nil_append]
  rw [Checked.mapM_eq_ok_iff] at hadded
  clear hrun hconditions
  induction hadded with
  | nil => exact ⟨nofun, by simp, fun p => iff_of_true nofun nofun⟩
  | @cons call cs calls added hcs _ ih =>
      have hcall : Trusted d [call] := fun text values hmem =>
        htrusted text values (List.mem_cons.2 (.inl (List.mem_singleton.1 hmem)))
      obtain ⟨hparts, hadds, hsatisfies⟩ := Call.addsAs_of_conditions hd hcs hcall
      obtain ⟨hparts', hadds', hsatisfies'⟩ :=
        ih fun text values hmem => htrusted text values (List.mem_cons_of_mem _ hmem)
      rw [List.flatten_cons]
      refine ⟨List.forall_mem_append.2 ⟨hparts, hparts'⟩, ?_, fun p => ?_⟩
      · rw [List.exists_mem_cons_iff, hadds, hadds', ne_eq, ne_eq, ne_eq, List.append_eq_nil_iff,
          not_and_or]
      · rw [List.forall_mem_cons, List.forall_mem_append, hsatisfies p, hsatisfies' p]

/-- In every language that extends the standard one, what stands after `WHERE` has a property of
conjunctions exactly if what each call adds has it when it is alone. -/
theorem satisfies_iff_calls (hd : d.Extends) {start query : Select} {calls : List Call}
    (hstart : start.conditions = []) (hrun : start.run calls = .ok query)
    (htrusted : Trusted d calls) (hp : Conjunctive d p) :
    query.Satisfies d p ↔ ∀ call ∈ calls, call.Satisfies d p := by
  obtain ⟨hparts, -, hsatisfies⟩ := conditions_of_run hd hstart hrun htrusted
  exact (satisfies_iff hp hparts).trans (hsatisfies p).symm

/-- The conditions of a query are conjoined as they stand.  Where the trusted texts are well-formed,
there is nothing after `WHERE` exactly if no call adds a condition; what stands there can be read
exactly if the condition of each call can be read when it is alone, and a row is left exactly if
each of them accepts it when it is alone; so further calls leave no further rows.  The text that
counts the rows has the same conditions. -/
theorem where_conjoins_calls {table : String} {start query : Select} {calls : List Call}
    (hstart : ofTable table = .ok start) (hrun : start.run calls = .ok query)
    (htrusted : Trusted .standard calls) :
    (query.whereSql = "" ↔ ∀ call ∈ calls, ¬ call.Adds) ∧
      (query.Satisfies .standard (fun _ => True) ↔
          ∀ call ∈ calls, call.Satisfies .standard fun _ => True) ∧
        (∀ scope, query.Admits scope ↔ ∀ call ∈ calls, call.Admits scope) ∧
          (∀ further result, query.run further = .ok result → Trusted .standard further →
            ∀ scope, result.Admits scope → query.Admits scope) ∧
            query.sql = "SELECT " ++ query.columnsSql ++ " FROM " ++ table ++ query.whereSql ++
              query.orderSql ++ query.windowSql ∧
              query.countSql = "SELECT COUNT(*) FROM " ++ table ++ query.whereSql := by
  obtain ⟨identifier, htable, hmade⟩ := Checked.bind_eq_ok_iff.1 hstart
  obtain rfl := Except.ok.inj hmade
  have hname : query.table.name = table := by
    obtain ⟨_, _, _, heq⟩ := run_eq_ok hrun
    rw [heq]
    exact Identifier.name_of_check htable
  subst hname
  refine ⟨?_, satisfies_iff_calls extends_standard rfl hrun htrusted conjunctive_true,
    fun scope => satisfies_iff_calls extends_standard rfl hrun htrusted (conjunctive_truth scope),
    ?_, rfl, rfl⟩
  · obtain ⟨-, hadds, -⟩ := conditions_of_run extends_standard rfl hrun htrusted
    rw [whereSql_eq_empty_iff, ← not_iff_not, ← ne_eq, ← hadds]
    simp
  · intro further result hfurther htrusted' scope hresult
    have hall : run { table := identifier } (calls ++ further) = .ok result := by
      rw [run, List.foldlM_append]
      exact Checked.bind_eq_ok_iff.2 ⟨query, hrun, hfurther⟩
    have htrustedAll : Trusted .standard (calls ++ further) := by
      intro text values hmem
      rcases List.mem_append.1 hmem with hmem | hmem
      · exact htrusted text values hmem
      · exact htrusted' text values hmem
    have htruth := conjunctive_truth scope
    have hcalls :=
      (satisfies_iff_calls extends_standard rfl hall htrustedAll htruth).1 hresult
    exact (satisfies_iff_calls extends_standard rfl hrun htrusted htruth).2 fun call hmem =>
      hcalls call (List.mem_append_left _ hmem)

/-- A row of another tenant is not let in by a text that joins its conditions by `OR`. -/
theorem where_conjoins_calls_tenant :
    ∃ start query, ofTable "notes" = .ok start ∧
      start.run [.whereEqual "tenant" (.integer 7),
        .whereFragment "a = ? OR b = ?" [.integer 1, .integer 2]] = .ok query ∧
      query.whereSql = " WHERE tenant = ? AND (a = ? OR b = ?)" ∧
      ∀ scope, query.Admits scope ↔ Accepts scope "tenant = ?" [.integer 7] ∧
        Accepts scope "a = ? OR b = ?" [.integer 1, .integer 2] := by
  have hstart : ofTable "notes" = .ok { table := ⟨"notes", by decide⟩ } := rfl
  have htokens : tokens "a = ? OR b = ?".toList = .ok [.word "a", .sign "=", .placeholder,
      .word "OR", .word "b", .sign "=", .placeholder] := by cbv
  have htrusted : Trusted .standard [.whereEqual "tenant" (.integer 7),
      .whereFragment "a = ? OR b = ?" [.integer 1, .integer 2]] := by
    intro text values hmem
    simp only [List.mem_cons, reduceCtorEq, List.not_mem_nil, or_false, false_or,
      Call.whereFragment.injEq] at hmem
    obtain ⟨rfl, rfl⟩ := hmem
    refine ⟨_, .or (.compare (.column "a") .equal (.value (.integer 1)))
      (.compare (.column "b") .equal (.value (.integer 2))), htokens, rfl, ?_⟩
    rw [readFormula, htokens]
    rfl
  obtain ⟨query, hrun, hwhere⟩ : ∃ query, run { table := ⟨"notes", by decide⟩ }
      [.whereEqual "tenant" (.integer 7),
        .whereFragment "a = ? OR b = ?" [.integer 1, .integer 2]] = .ok query ∧
      query.whereSql = " WHERE tenant = ? AND (a = ? OR b = ?)" := ⟨_, rfl, by decide⟩
  refine ⟨_, query, hstart, hrun, hwhere, fun scope => ?_⟩
  rw [(where_conjoins_calls hstart hrun htrusted).2.2.1 scope, List.forall_mem_cons,
    List.forall_mem_singleton]
  rfl

end Select

end TableQuery
