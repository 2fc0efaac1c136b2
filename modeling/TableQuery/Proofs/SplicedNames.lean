import Mathlib.Computability.Language
import TableQuery.GraphQL.Value
import TableQuery.Proofs.AtomText
import TableQuery.Proofs.RequestCalls

/-!
# Names in texts

Names of tables and columns cannot be bound to placeholders: they are written into the texts of a
query as they are.  They come in on five ways (the table, the columns of the rows, those of
conditions, those of the order, and that of the default order), and the check of each stands at a
place of its own.  Here the ways are put together again: `Wishes.names` lists every name that a
request can write, and `Select.Over` says that a query writes no others.

A text that is made of such names, of placeholders and of numbers keeps to the few characters of
`isQueryChar`, so it quotes nothing, opens no comment and ends no statement.  Numbers bring in the
only other character, a minus sign, and of those a text has at most one: an offset is written only
if it is positive.

## Main results

* `mem_qualifiedNames_iff` — identifiers are the names of a regular language.
* `Select.harmless_sql`, `Select.harmless_countSql` — the texts of a query without trusted texts.
* `Request.names_checked` — what building a request without hooks lets through.
-/

namespace TableQuery

/-! ## The language of names -/

/-- The texts of one character, out of those with a property. -/
def oneOf (p : Char → Prop) : Language Char := {chars | ∃ c, p c ∧ chars = [c]}

/-- A letter of ASCII or an underscore. -/
def StartsWord (c : Char) : Prop := ('A' ≤ c ∧ c ≤ 'Z') ∨ ('a' ≤ c ∧ c ≤ 'z') ∨ c = '_'

/-- A letter or digit of ASCII, or an underscore. -/
def ContinuesWord (c : Char) : Prop := StartsWord c ∨ ('0' ≤ c ∧ c ≤ '9')

/-- `[A-Za-z_][A-Za-z0-9_]*` -/
def words : Language Char := oneOf StartsWord * KStar.kstar (oneOf ContinuesWord)

/-- A word, or two words with a point between them: `[A-Za-z_][A-Za-z0-9_]*`, and then once or not
at all a point and the same again. -/
def qualifiedNames : Language Char := words * (1 + oneOf (· = '.') * words)

theorem mem_kstar_oneOf_iff {p : Char → Prop} {chars : List Char} :
    chars ∈ KStar.kstar (oneOf p) ↔ ∀ c ∈ chars, p c := by
  rw [Language.mem_kstar]
  constructor
  · rintro ⟨pieces, rfl, hpieces⟩ c hc
    obtain ⟨piece, hpiece, hc⟩ := List.mem_flatten.1 hc
    obtain ⟨d, hd, rfl⟩ := hpieces piece hpiece
    obtain rfl := List.mem_singleton.1 hc
    exact hd
  · intro h
    refine ⟨chars.map fun c => [c], ?_, ?_⟩
    · rw [← List.flatMap_def, List.flatMap_singleton']
    · rintro piece hpiece
      obtain ⟨c, hc, rfl⟩ := List.mem_map.1 hpiece
      exact ⟨c, h c hc, rfl⟩

theorem isWordStart_iff {c : Char} : isWordStart c = true ↔ StartsWord c := by
  show ((decide ('A' ≤ c ∧ c ≤ 'Z') || (decide ('a' ≤ c) && decide (c ≤ 'z'))) ||
    decide (c = '_')) = true ↔ _
  simp only [StartsWord, Bool.or_eq_true, Bool.and_eq_true, decide_eq_true_eq, or_assoc]

theorem isWordRest_iff {c : Char} : isWordRest c = true ↔ ContinuesWord c := by
  have hdigit : c.isDigit = true ↔ '0' ≤ c ∧ c ≤ '9' := by
    show (decide ('0' ≤ c) && decide (c ≤ '9')) = true ↔ _
    rw [Bool.and_eq_true, decide_eq_true_eq, decide_eq_true_eq]
  have hstart : isWordRest c = true ↔ isWordStart c = true ∨ c.isDigit = true := by
    show ((c.isAlpha || c.isDigit) || decide (c = '_')) = true ↔
      (c.isAlpha || decide (c = '_')) = true ∨ _
    simp only [Bool.or_eq_true]
    tauto
  rw [hstart, isWordStart_iff, hdigit, ContinuesWord]

theorem mem_words_iff {chars : List Char} : chars ∈ words ↔ isWord chars = true := by
  rw [words, Language.mem_mul]
  constructor
  · rintro ⟨_, ⟨c, hc, rfl⟩, rest, hrest, rfl⟩
    have hrest' : rest.all isWordRest = true :=
      List.all_eq_true.2 fun d hd => isWordRest_iff.2 (mem_kstar_oneOf_iff.1 hrest d hd)
    show (isWordStart c && rest.all isWordRest) = true
    rw [isWordStart_iff.2 hc, hrest', Bool.and_self]
  · intro h
    cases chars with
    | nil => cases h
    | cons c rest =>
        obtain ⟨hc, hrest⟩ := Bool.and_eq_true_iff.1 h
        exact ⟨[c], ⟨c, isWordStart_iff.1 hc, rfl⟩, rest, mem_kstar_oneOf_iff.2 fun d hd =>
          isWordRest_iff.1 (List.all_eq_true.1 hrest d hd), rfl⟩

/-- Identifiers are the texts of a regular language, with nothing before or after them. -/
theorem mem_qualifiedNames_iff {chars : List Char} :
    chars ∈ qualifiedNames ↔ isIdentifier chars = true := by
  have hpoint : ∀ {word : List Char}, isWord word = true → '.' ∉ word := fun hword hmem =>
    absurd (all_of_isWord hword '.' hmem) (by decide)
  constructor
  · intro h
    obtain ⟨first, hfirst, rest, hrest, rfl⟩ := Language.mem_mul.1 h
    rw [mem_words_iff] at hfirst
    rcases (Language.mem_add _ _ _).1 hrest with hnone | hqualified
    · obtain rfl := (Language.mem_one _).1 hnone
      have hsplit : (first ++ []).splitOn '.' = [first] := by
        have hsingle : ∀ word ∈ [first], '.' ∉ word := by
          simpa using hpoint hfirst
        simpa using List.splitOn_intercalate '.' hsingle (List.cons_ne_nil _ _)
      rw [isIdentifier, hsplit]
      exact hfirst
    · obtain ⟨_, ⟨_, rfl, rfl⟩, second, hsecond, rfl⟩ := Language.mem_mul.1 hqualified
      rw [mem_words_iff] at hsecond
      have hsplit : (first ++ '.' :: second).splitOn '.' = [first, second] := by
        have hboth : ∀ word ∈ [first, second], '.' ∉ word := by
          simpa using ⟨hpoint hfirst, hpoint hsecond⟩
        simpa using List.splitOn_intercalate '.' hboth (List.cons_ne_nil _ _)
      show isIdentifier (first ++ '.' :: second) = true
      rw [isIdentifier, hsplit]
      exact Bool.and_eq_true_iff.2 ⟨hfirst, hsecond⟩
  · intro h
    have hjoin : ['.'].intercalate (chars.splitOn '.') = chars := List.intercalate_splitOn '.'
    rw [isIdentifier] at h
    split at h
    · next word hsplit =>
        rw [hsplit, List.intercalate_singleton] at hjoin
        rw [← hjoin]
        exact ⟨word, mem_words_iff.2 h, [], .inl rfl, List.append_nil word⟩
    · next first second hsplit =>
        rw [hsplit, List.intercalate_cons_cons, List.intercalate_singleton] at hjoin
        obtain ⟨hfirst, hsecond⟩ := Bool.and_eq_true_iff.1 h
        rw [← hjoin, List.append_assoc]
        exact ⟨first, mem_words_iff.2 hfirst, '.' :: second,
          .inr ⟨['.'], ⟨'.', rfl, rfl⟩, second, mem_words_iff.2 hsecond, rfl⟩, rfl⟩
    · cases h

/-! ## The characters of texts -/

/-- Whether a character stands in texts of queries: in a term, or between terms. -/
def isQueryChar (c : Char) : Bool := isTermChar c || " ,*?=<>".toList.contains c

/-- A text of such characters only. -/
def Plain (s : String) : Prop := ∀ c ∈ s.toList, isQueryChar c = true

instance (s : String) : Decidable (Plain s) := List.decidableBAll _ _

/-- A text of such characters and of at most one minus sign. -/
def AlmostPlain (s : String) : Prop :=
  (∀ c ∈ s.toList, isQueryChar c = true ∨ c = '-') ∧ s.toList.count '-' ≤ 1

instance (s : String) : Decidable (AlmostPlain s) :=
  @instDecidableAnd _ _ (List.decidableBAll _ _) _

/-- A text that quotes nothing, ends no statement, has no control character, and opens no
comment. -/
structure Harmless (s : String) : Prop where
  chars : ∀ c ∈ s.toList, c ∉ ['"', '\x27', '\x60', ';', '\\'] ∧ GraphQL.isControl c = false
  line : ¬ ['-', '-'] <:+: s.toList
  block : ¬ ['/', '*'] <:+: s.toList

namespace Plain

theorem append {s t : String} (hs : Plain s) (ht : Plain t) : Plain (s ++ t) := by
  intro c hc
  rw [String.toList_append] at hc
  exact (List.mem_append.1 hc).elim (hs c) (ht c)

theorem intercalate {items : List String} (h : ∀ item ∈ items, Plain item) :
    Plain (", ".intercalate items) := by
  intro c hc
  rcases mem_intercalate hc with hc | ⟨item, hitem, hc⟩
  · have hseparator : Plain ", " := by decide
    exact hseparator c hc
  · exact h item hitem c hc

theorem count_minus {s : String} (h : Plain s) : s.toList.count '-' = 0 :=
  List.count_eq_zero.2 fun hmem => absurd (h '-' hmem) (by decide)

theorem almost {s : String} (h : Plain s) : AlmostPlain s :=
  ⟨fun c hc => .inl (h c hc), h.count_minus ▸ Nat.zero_le 1⟩

end Plain

namespace AlmostPlain

theorem plain_append {s t : String} (hs : Plain s) (ht : AlmostPlain t) : AlmostPlain (s ++ t) := by
  refine ⟨fun c hc => ?_, ?_⟩
  · rw [String.toList_append] at hc
    exact (List.mem_append.1 hc).elim (fun hc => .inl (hs c hc)) (ht.1 c)
  · rw [String.toList_append, List.count_append, hs.count_minus, Nat.zero_add]
    exact ht.2

theorem append_plain {s t : String} (hs : AlmostPlain s) (ht : Plain t) : AlmostPlain (s ++ t) := by
  refine ⟨fun c hc => ?_, ?_⟩
  · rw [String.toList_append] at hc
    exact (List.mem_append.1 hc).elim (hs.1 c) (fun hc => .inl (ht c hc))
  · rw [String.toList_append, List.count_append, ht.count_minus, Nat.add_zero]
    exact hs.2

end AlmostPlain

theorem isTermChar_range {c : Char} (h : isTermChar c = true) : 32 ≤ c.toNat ∧ c.toNat < 127 := by
  simp only [isTermChar, isWordRest_iff, Bool.or_eq_true, decide_eq_true_eq] at h
  rcases h with (((((h | h | rfl) | h) | rfl) | rfl) | rfl)
  · have hletter : 65 ≤ c.toNat ∧ c.toNat ≤ 90 := h
    omega
  · have hletter : 97 ≤ c.toNat ∧ c.toNat ≤ 122 := h
    omega
  · decide
  · have hdigit : 48 ≤ c.toNat ∧ c.toNat ≤ 57 := h
    omega
  all_goals decide

/-- None of the characters of queries does harm. -/
theorem harmless_of_isQueryChar {c : Char} (h : isQueryChar c = true) :
    c ∉ ['"', '\x27', '\x60', ';', '\\', '/'] ∧ GraphQL.isControl c = false := by
  constructor
  · intro hmem
    have hnone : (['"', '\x27', '\x60', ';', '\\', '/'].any isQueryChar) = false := by decide
    exact List.any_eq_false.1 hnone c hmem h
  · have hrange : 32 ≤ c.toNat ∧ c.toNat < 127 := by
      rw [isQueryChar, Bool.or_eq_true, List.contains_iff_mem] at h
      rcases h with h | h
      · exact isTermChar_range h
      · have hall : " ,*?=<>".toList.all (fun d => 32 ≤ d.toNat ∧ d.toNat < 127) = true := by decide
        exact of_decide_eq_true (List.all_eq_true.1 hall c h)
    simp only [GraphQL.isControl, Bool.or_eq_false_iff, Bool.and_eq_false_iff,
      decide_eq_false_iff_not]
    omega

/-- Such texts open no comment: that takes a second minus sign, or a stroke. -/
theorem AlmostPlain.harmless {s : String} (h : AlmostPlain s) : Harmless s := by
  obtain ⟨h, hminus⟩ := h
  have hchars : ∀ c ∈ s.toList,
      c ∉ ['"', '\x27', '\x60', ';', '\\', '/'] ∧ GraphQL.isControl c = false := by
    intro c hc
    rcases h c hc with hquery | rfl
    · exact harmless_of_isQueryChar hquery
    · decide
  refine ⟨fun c hc => ?_, fun hwithin => ?_, fun hwithin => ?_⟩
  · obtain ⟨hmem, hcontrol⟩ := hchars c hc
    exact ⟨fun h => hmem (List.mem_append_left ['/'] h), hcontrol⟩
  · have htwo : ['-', '-'].count '-' ≤ s.toList.count '-' := hwithin.sublist.count_le '-'
    have hcount : ['-', '-'].count '-' = 2 := by decide
    omega
  · exact (hchars '/' (hwithin.subset List.mem_cons_self)).1 (by decide)

/-! ## Conditions -/

theorem Identifier.plain_name (identifier : Identifier) : Plain identifier.name := by
  intro c hc
  rcases identifier.isWordRest_of_mem hc with h | h <;> simp [isQueryChar, isTermChar, h]

theorem Term.plain_sql (term : Term) : Plain term.sql := by
  intro c hc
  rw [isQueryChar, term.isTermChar_of_mem hc, Bool.true_or]

theorem Bound.plain_sql (bound : Bound) : Plain bound.sql := by
  obtain ⟨value, form⟩ := bound
  show Plain (form.wrap "?")
  cases form <;> decide

/-- The column of an atom, which the condition that no row meets does not have. -/
def Atom.column? : Atom → Option Identifier
  | compare term _ _ | like term _ _ | among term _ _ | null term _ => some term.column
  | never => none

theorem Atom.plain_sql (a : Atom) : Plain a.sql := by
  cases a with
  | compare term comparator bound =>
      have hcomparator : Plain comparator.sql := by
        cases comparator <;> decide
      exact (((term.plain_sql.append (by decide)).append hcomparator).append (by decide)).append
        bound.plain_sql
  | like term negated bound =>
      have hoperator : Plain (if negated then " NOT LIKE " else " LIKE ") := by
        cases negated <;> decide
      exact (term.plain_sql.append hoperator).append bound.plain_sql
  | among term negated bounds =>
      have hoperator : Plain (if negated then " NOT IN (" else " IN (") := by
        cases negated <;> decide
      refine ((term.plain_sql.append hoperator).append (.intercalate fun item hitem => ?_)).append
        (by decide)
      obtain ⟨bound, -, rfl⟩ := List.mem_map.1 hitem
      exact bound.plain_sql
  | null term negated =>
      have hoperator : Plain (if negated then " IS NOT NULL" else " IS NULL") := by
        cases negated <;> decide
      exact term.plain_sql.append hoperator
  | never => decide

/-- `c.Over names` holds if a condition has no trusted texts and names no columns but those. -/
inductive Condition.Over (names : List String) : Condition → Prop where
  | atom {a : Atom} (h : ∀ column, a.column? = some column → column.name ∈ names) :
      Over names (.atom a)
  | joined {junction : Junction} {first second : Condition} {rest : List Condition}
      (h : ∀ c ∈ first :: second :: rest, Over names c) :
      Over names (.joined junction first second rest)

namespace Condition

variable {names : List String}

theorem plain_grouped {c : Condition} (h : Plain c.sql) : Plain c.grouped := by
  unfold grouped parenthesize
  cases c.isJoined with
  | false => exact h
  | true => exact (Plain.append (by decide) h).append (by decide)

theorem Over.plain_sql {c : Condition} (h : c.Over names) : Plain c.sql := by
  induction h with
  | @atom a => exact a.plain_sql
  | @joined junction first second rest _ ih =>
      have hseparator : Plain junction.separator := by
        cases junction <;> decide
      have hrest : ∀ cs : List Condition, (∀ c ∈ cs, Plain c.sql) →
          Plain (sqlRest junction cs) := by
        intro cs hcs
        induction cs with
        | nil => exact fun c hc => absurd hc List.not_mem_nil
        | cons c cs ihcs =>
            exact (hseparator.append (plain_grouped (hcs c List.mem_cons_self))).append
              (ihcs fun c hc => hcs c (List.mem_cons_of_mem _ hc))
      rw [sql_joined]
      exact (plain_grouped (ih first List.mem_cons_self)).append
        (hrest _ fun c hc => ih c (List.mem_cons_of_mem first hc))

theorem Over.mono {names' : List String} (hsubset : names ⊆ names') {c : Condition}
    (h : c.Over names) : c.Over names' := by
  induction h with
  | atom h => exact .atom fun column hcolumn => hsubset (h column hcolumn)
  | joined _ ih => exact .joined ih

theorem Over.join? {junction : Junction} {conditions : List Condition} {result : Condition}
    (h : ∀ c ∈ conditions, c.Over names)
    (hresult : Condition.join? junction conditions = some result) : result.Over names := by
  match conditions with
  | [] => cases hresult
  | [c] =>
      obtain rfl := Option.some.inj hresult
      exact h c List.mem_cons_self
  | first :: second :: rest =>
      obtain rfl := Option.some.inj hresult
      exact .joined h

end Condition

/-! ## Filters -/

/-- The columns of the leaves of a filter. -/
def Filter.columns (filter : Filter) : List String := filter.leaves.map Prod.fst

theorem Filter.columns_subset_group {junction : Junction} {children : List Filter} {child : Filter}
    (h : child ∈ children) : child.columns ⊆ (Filter.group junction children).columns := by
  intro name hname
  obtain ⟨leaf, hleaf, rfl⟩ := List.mem_map.1 hname
  rw [columns, leaves_group]
  exact List.mem_map_of_mem (List.mem_flatMap.2 ⟨child, h, hleaf⟩)

theorem OperatorSet.Asks.column?_eq {set : OperatorSet} {column : Identifier} {a : Atom}
    (h : set.Asks column a) : ∀ found, a.column? = some found → found = column := by
  have hmember : ∀ {negated : Bool} {operands : List Operand},
      set.memberAtom? column negated operands = some a →
        ∀ found, a.column? = some found → found = column := by
    intro negated operands hatom found hfound
    unfold memberAtom? at hatom
    split at hatom
    · -- an empty list names no column
      cases negated with
      | false =>
          obtain rfl := Option.some.inj hatom
          cases hfound
      | true => cases hatom
    · split at hatom <;>
      · obtain rfl := Option.some.inj hatom
        exact (Option.some.inj hfound).symm
  cases h with
  | comparison c operand =>
      intro found hfound
      cases c <;> cases operand <;> exact (Option.some.inj hfound).symm
  | pattern | null | notNull => exact fun found hfound => (Option.some.inj hfound).symm
  | oneOf operands _ _ ha => exact hmember ha
  | noneOf operands _ _ ha => exact hmember ha

/-- A filter that compiles has identifiers for columns, and its condition names no others. -/
theorem Filter.over_of_condition? (filter : Filter) :
    ∀ {result : Option Condition}, filter.condition? = .ok result →
      (∀ name ∈ filter.columns, name.toList ∈ qualifiedNames) ∧
        ∀ c, result = some c → c.Over filter.columns := by
  induction filter using Filter.induction with
  | leaf name operators =>
      intro result h
      obtain ⟨column, atoms, hcolumn, hatoms, rfl⟩ := condition?_leaf_eq_ok_iff.1 h
      have hname := Identifier.name_of_check hcolumn
      refine ⟨fun name hmem => ?_, fun c hc => ?_⟩
      · obtain rfl := List.mem_singleton.1 hmem
        rw [mem_qualifiedNames_iff, ← hname]
        exact column.valid
      · refine .join? (fun part hpart => ?_) hc
        obtain ⟨a, ha, rfl⟩ := List.mem_map.1 hpart
        refine .atom fun found hfound => ?_
        rw [((OperatorSet.mem_atoms_iff hatoms a).1 ha).column?_eq found hfound, hname]
        exact List.mem_singleton_self name
  | group junction children ih =>
      intro result h
      obtain ⟨results, hresults, rfl⟩ := condition?_group_eq_ok_iff.1 h
      refine ⟨fun name hname => ?_, fun c hc => ?_⟩
      · rw [columns, leaves_group] at hname
        obtain ⟨leaf, hleaf, rfl⟩ := List.mem_map.1 hname
        obtain ⟨child, hchild, hleaf⟩ := List.mem_flatMap.1 hleaf
        obtain ⟨found, -, hfound⟩ := Checked.exists_mem_right hresults hchild
        exact (ih child hchild hfound).1 _ (List.mem_map_of_mem hleaf)
      · refine .join? (fun part hpart => ?_) hc
        obtain ⟨found, hfound, hpart⟩ := List.mem_flatMap.1 hpart
        obtain ⟨child, hchild, hcompiled⟩ := Checked.exists_mem_left hresults hfound
        exact ((ih child hchild hcompiled).2 part (Option.mem_toList.1 hpart)).mono
          (columns_subset_group hchild)

theorem Filter.over_of_conditionOf? {tree : Option Filter} {condition : Option Condition}
    (h : conditionOf? tree = .ok condition) :
    (∀ name ∈ tree.elim [] columns, name.toList ∈ qualifiedNames) ∧
      ∀ c, condition = some c → c.Over (tree.elim [] columns) := by
  cases tree with
  | none =>
      obtain rfl := Except.ok.inj h
      exact ⟨fun name hname => absurd hname List.not_mem_nil, fun c hc => by cases hc⟩
  | some filter => exact filter.over_of_condition? h

/-! ## Orders -/

theorem Order.plain_sql (order : Order) : Plain order.sql := by
  refine .intercalate fun item hitem => ?_
  obtain ⟨key, -, rfl⟩ := List.mem_map.1 hitem
  have hdirection : Plain key.direction.sql := by
    cases key.direction <;> decide
  exact (key.column.plain_name.append (by decide)).append hdirection

/-! ## Queries -/

/-- `query.Over names` holds if a query has no trusted texts and names nothing else. -/
structure Select.Over (names : List String) (query : Select) : Prop where
  table : query.table.name ∈ names
  columns : ∀ column ∈ query.columns, column.name ∈ names
  conditions : ∀ c ∈ query.conditions, c.Over names
  order : ∀ order, query.order = some order → ∀ key ∈ order.keys, key.column.name ∈ names

/-- Numbers are written in digits, after a minus sign if they are negative. -/
theorem plain_toString (i : Int) : Plain (toString i) ∨
    i < 0 ∧ ∃ digits, toString i = "-" ++ digits ∧ Plain digits := by
  have hnat : ∀ n : Nat, Plain n.repr := by
    intro n c hc
    rw [Nat.toList_repr] at hc
    have hdigit : c.isDigit = true := Nat.isDigit_of_mem_toDigits (by decide) (by decide) hc
    simp [isQueryChar, isTermChar, isWordRest, Char.isAlphanum, hdigit]
  cases i with
  | ofNat n => exact .inl (hnat n)
  | negSucc n => exact .inr ⟨Int.negSucc_lt_zero n, _, rfl, hnat (n + 1)⟩

namespace Select

variable {names : List String} {query : Select}

theorem plain_columnsSql (query : Select) : Plain query.columnsSql := by
  unfold columnsSql
  split
  · decide
  · refine .intercalate fun item hitem => ?_
    obtain ⟨column, -, rfl⟩ := List.mem_map.1 hitem
    exact column.plain_name

theorem plain_orderSql (query : Select) : Plain query.orderSql := by
  unfold orderSql
  cases query.order with
  | none => decide
  | some order => exact Plain.append (by decide) order.plain_sql

theorem Over.plain_whereSql (h : query.Over names) : Plain query.whereSql := by
  unfold whereSql
  cases hcondition : query.condition? with
  | none => decide
  | some condition =>
      exact Plain.append (by decide) (Condition.Over.join? h.conditions hcondition).plain_sql

theorem harmless_countSql (h : query.Over names) : Harmless query.countSql :=
  ((Plain.append (by decide) query.table.plain_name).append h.plain_whereSql).almost.harmless

/-- The part of the text that names the window has at most the minus sign of a negative limit. -/
theorem almostPlain_windowSql (query : Select) : AlmostPlain query.windowSql := by
  have hlimit : ∀ limit : Int64, AlmostPlain (" LIMIT " ++ toString limit.toInt) := by
    intro limit
    refine .plain_append (by decide) ?_
    rcases plain_toString limit.toInt with h | ⟨-, digits, heq, hdigits⟩
    · exact h.almost
    · rw [heq]
      exact .append_plain (by decide) hdigits
  have hoffset : ∀ offset : Int64,
      Plain (if 0 < offset then " OFFSET " ++ toString offset.toInt else "") := by
    intro offset
    split
    · next hpositive =>
        refine Plain.append (by decide) ?_
        rcases plain_toString offset.toInt with h | ⟨hnegative, -⟩
        · exact h
        · have hzero : 0 < offset.toInt := Int64.lt_iff_toInt_lt.1 hpositive
          omega
    · decide
  unfold windowSql
  cases query.limit with
  | none =>
      cases query.offset with
      | none => decide
      | some offset => exact ((Plain.append (by decide) (hoffset offset) : Plain ("" ++ _))).almost
  | some limit =>
      cases query.offset with
      | none => exact (hlimit limit).append_plain (by decide)
      | some offset => exact (hlimit limit).append_plain (hoffset offset)

theorem harmless_sql (h : query.Over names) : Harmless query.sql := by
  have hplain : Plain ("SELECT " ++ query.columnsSql ++ " FROM " ++ query.table.name ++
      query.whereSql ++ query.orderSql) :=
    (((((Plain.append (by decide) query.plain_columnsSql).append (by decide)).append
      query.table.plain_name).append h.plain_whereSql).append query.plain_orderSql)
  exact (AlmostPlain.plain_append hplain query.almostPlain_windowSql).harmless

end Select

/-! ## Requests -/

/-- All names that a request over a table is about to write: the table, the columns of the leaves of
its filter, of its order and of its projection. -/
def Wishes.names (wishes : Wishes) (table : String) (fallback : SortKey) : List String :=
  table :: (wishes.tree.elim [] Filter.columns ++
    (SortSpec.keysOf wishes.spec fallback).map SortKey.column ++ wishes.columns)

theorem Identifier.name_mem_qualifiedNames (identifier : Identifier) :
    identifier.name.toList ∈ qualifiedNames := mem_qualifiedNames_iff.2 identifier.valid

namespace Request

/-- A plan without hooks names nothing but what was asked for, and all of that is checked. -/
theorem over_of_build {table : String} {limits : PageLimits} {calls : List Call}
    (hhooks : ∀ call ∈ calls, call.isHook = false) {plan : Plan}
    (h : ((ofTable table limits).run calls).build = .ok plan) :
    let names := (Wishes.ofCalls calls).names table limits.defaultSort
    (∀ name ∈ names, name.toList ∈ qualifiedNames) ∧
      plan.select.Over names ∧ plan.count.Over names := by
  obtain ⟨query, condition, order, columns, hquery, hcondition, hcount, horder, hcolumns, -,
    hselect⟩ := build_run_eq_ok h
  obtain ⟨identifier, htable, hquery⟩ := Checked.bind_eq_ok_iff.1 hquery
  obtain rfl := Except.ok.inj hquery
  rw [Wishes.hooks_ofCalls hhooks] at hcount
  have hcount : plan.count = _ := (Except.ok.inj hcount).symm
  have htableName := Identifier.name_of_check htable
  have hcolumnNames := Identifier.map_name_of_mapM hcolumns
  have horderNames : order.keys.map (fun key => key.column.name) =
      (SortSpec.keysOf (Wishes.ofCalls calls).spec limits.defaultSort).map SortKey.column := by
    rw [← Order.keys_of_ofSpec horder, List.map_map]
    rfl
  obtain ⟨hfilterNames, hover⟩ := Filter.over_of_conditionOf? hcondition
  intro names
  -- each way that a name can take is a part of the list
  have hfilterMem : (Wishes.ofCalls calls).tree.elim [] Filter.columns ⊆ names := fun name hname =>
    List.mem_cons_of_mem _ (List.mem_append_left _ (List.mem_append_left _ hname))
  have horderMem : order.keys.map (fun key => key.column.name) ⊆ names := fun name hname =>
    List.mem_cons_of_mem _ (List.mem_append_left _ (List.mem_append_right _ (horderNames ▸ hname)))
  have hcolumnsMem : columns.map Identifier.name ⊆ names := fun name hname =>
    List.mem_cons_of_mem _ (List.mem_append_right _ (hcolumnNames ▸ hname))
  have hcountOver : plan.count.Over names := by
    rw [hcount]
    refine ⟨htableName ▸ List.mem_cons_self, fun column hcolumn => absurd hcolumn List.not_mem_nil,
      fun c hc => ?_, fun order horder => by cases horder⟩
    exact (hover c (Option.mem_toList.1 hc)).mono hfilterMem
  refine ⟨fun name hname => ?_, ?_, hcountOver⟩
  · rcases List.mem_cons.1 hname with rfl | hname
    · rw [← htableName]
      exact identifier.name_mem_qualifiedNames
    · rcases List.mem_append.1 hname with hname | hname
      · rcases List.mem_append.1 hname with hname | hname
        · exact hfilterNames name hname
        · rw [← horderNames] at hname
          obtain ⟨key, -, rfl⟩ := List.mem_map.1 hname
          exact key.column.name_mem_qualifiedNames
      · rw [← hcolumnNames] at hname
        obtain ⟨column, -, rfl⟩ := List.mem_map.1 hname
        exact column.name_mem_qualifiedNames
  · rw [hselect]
    refine ⟨hcountOver.table, fun column hcolumn => ?_, hcountOver.conditions, ?_⟩
    · exact hcolumnsMem (List.mem_map_of_mem hcolumn)
    · rintro _ ⟨⟩ key hkey
      exact horderMem (List.mem_map_of_mem hkey)

/-- No name can smuggle anything into a text.  Without hooks, a request that is built has checked
every name that it writes, writes no others, and has harmless texts; and if one of the names that it
is about to write does not have the form of a name, it is refused. -/
theorem names_checked (table : String) (limits : PageLimits) {calls : List Call}
    (hhooks : ∀ call ∈ calls, call.isHook = false) :
    let names := (Wishes.ofCalls calls).names table limits.defaultSort
    (∀ plan, ((ofTable table limits).run calls).build = .ok plan →
      (∀ name ∈ names, name.toList ∈ qualifiedNames) ∧ plan.select.Over names ∧
        plan.count.Over names ∧ Harmless plan.select.sql ∧ Harmless plan.count.countSql) ∧
    ((∃ name ∈ names, name.toList ∉ qualifiedNames) →
      ∃ error, ((ofTable table limits).run calls).build = .error error) := by
  intro names
  constructor
  · intro plan hplan
    obtain ⟨hnames, hselect, hcount⟩ := over_of_build hhooks hplan
    exact ⟨hnames, hselect, hcount, Select.harmless_sql hselect, Select.harmless_countSql hcount⟩
  · rintro ⟨name, hname, hinvalid⟩
    cases hbuild : ((ofTable table limits).run calls).build with
    | error error => exact ⟨error, rfl⟩
    | ok plan => exact absurd ((over_of_build hhooks hbuild).1 name hname) hinvalid

/-- Calls that name a column by each of the ways, the projected one as given. -/
def callsNaming (column : String) : List Call :=
  [.filter (.ok (some (.leaf "m.title" (.ofPattern .contains (.text "\x27;--"))))),
    .sort (some (.one [⟨"year", some .descending⟩, ⟨"m.id", some .ascending⟩])),
    .projection ⟨[⟨"title", "title", true⟩, ⟨column, "hidden", true⟩]⟩]

/-- The default limit may be negative, which is the one minus sign of a text.  A column with
a line break at its end is refused. -/
theorem names_checked_projection :
    (∃ plan, ((ofTable "m" { defaultLimit := -1 }).run (callsNaming "_hidden1")).build = .ok plan ∧
      plan.select.sql = "SELECT title, _hidden1 FROM m WHERE m.title LIKE ? " ++
        "ORDER BY year DESC, m.id ASC LIMIT -1" ∧ Harmless plan.select.sql) ∧
    ∃ error, ((ofTable "m" {}).run (callsNaming "hidden\n")).build = .error error := by
  have hhooks : ∀ column, ∀ call ∈ callsNaming column, call.isHook = false := by
    simp [callsNaming, Call.isHook]
  obtain ⟨plan, hplan, hsql⟩ : ∃ plan,
      ((ofTable "m" { defaultLimit := -1 }).run (callsNaming "_hidden1")).build = .ok plan ∧
      plan.select.sql = "SELECT title, _hidden1 FROM m WHERE m.title LIKE ? " ++
        "ORDER BY year DESC, m.id ASC LIMIT -1" := ⟨_, rfl, by decide⟩
  obtain ⟨-, -, -, hharmless, -⟩ := (names_checked "m" _ (hhooks "_hidden1")).1 plan hplan
  have hinvalid : "hidden\n".toList ∉ qualifiedNames := by
    rw [mem_qualifiedNames_iff]
    decide
  have hmem : "hidden\n" ∈ (Wishes.ofCalls (callsNaming "hidden\n")).names "m" .standard := by
    decide
  exact ⟨⟨plan, hplan, hsql, hharmless⟩,
    (names_checked "m" {} (hhooks "hidden\n")).2 ⟨_, hmem, hinvalid⟩⟩

end Request

end TableQuery
