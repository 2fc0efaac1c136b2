import TableQuery.Proofs.Cursor

/-!
# Edges of a page

Where a page stands is computed three times: the end of its window, which decides whether there is
a next page, the offset of each row, and the offset of its last row once more.  Each sum is cut off
at the greatest integer by itself.  As long as no row is left out before the first one these sums
agree with each other and with the exact ones, up to the last offset there is: cutting off never
makes a next page, and only rows behind the last offset share a cursor.

## Main results

* `PageWindow.toInt_offsetAt` — the offset of a row.
* `Page.getElem?_edges` — the edge at an index.
* `Page.startCursor_ofItems`, `Page.endCursor_ofItems` — the first and the last cursor.
* `Page.run_mapM` — changing rows one after the other.
* `page_metadata_exact` — what is known of a page.
-/

namespace TableQuery

variable {α β : Type} {window : PageWindow}

/-! ## Offsets -/

theorem PageWindow.offsetAt_zero (window : PageWindow) : window.offsetAt 0 = window.skip := by
  have hlower := window.skip.le_toInt
  have hupper := window.skip.toInt_lt
  apply Int64.toInt_inj.1
  rw [offsetAt, toInt_saturatingAdd]
  show max _ (min (window.skip.toInt + 0) _) = _
  omega

/-- The offset of a row is the sum, cut off at the last offset there is. -/
theorem PageWindow.toInt_offsetAt (hskip : 0 ≤ window.skip.toInt) {index : Nat}
    (hindex : index < 2 ^ 63) :
    (window.offsetAt index).toInt = min (window.skip.toInt + index) Int64.maxValue.toInt := by
  rw [offsetAt, toInt_saturatingAdd, Int64.toInt_ofNat_of_lt hindex, Int64.toInt_maxValue]
  omega

/-- Offsets that are out of range are the last one there is. -/
theorem PageWindow.offsetAt_eq_maxValue (hskip : 0 ≤ window.skip.toInt) {index : Nat}
    (hindex : index < 2 ^ 63)
    (hreach : Int64.maxValue.toInt ≤ window.skip.toInt + index) :
    window.offsetAt index = Int64.maxValue := by
  apply Int64.toInt_inj.1
  rw [toInt_offsetAt hskip hindex]
  omega

/-- The cursor of a row is read as its offset. -/
theorem PageWindow.decodeCursor_offsetAt (hskip : 0 ≤ window.skip.toInt) {index : Nat}
    (hindex : index < 2 ^ 63) :
    decodeCursor (encodeCursor (window.offsetAt index)) = .ok (window.offsetAt index) := by
  apply decodeCursor_encodeCursor_of_nonneg
  rw [toInt_offsetAt hskip hindex, Int64.toInt_maxValue]
  omega

namespace Page

/-! ## Edges -/

theorem edgesFrom_eq_zipIdx (window : PageWindow) (index : Nat) (items : List α) :
    edgesFrom window index items =
      (items.zipIdx index).map fun entry =>
        ⟨entry.1, encodeCursor (window.offsetAt entry.2)⟩ := by
  induction items generalizing index with
  | nil => rfl
  | cons item rest ih =>
      rw [edgesFrom, ih (index + 1)]
      rfl

variable (items : List α) (window : PageWindow) (total : Int64)

/-- There is an edge for each row, in their order. -/
theorem getElem?_edges (index : Nat) :
    (ofItems items window total).edges[index]? =
      items[index]?.map fun node => ⟨node, encodeCursor (window.offsetAt index)⟩ := by
  show (edgesFrom window 0 items)[index]? = _
  rw [edgesFrom_eq_zipIdx, List.getElem?_map, List.getElem?_zipIdx, Option.map_map, Nat.zero_add]
  rfl

theorem length_edges : (ofItems items window total).edges.length = items.length := by
  show (edgesFrom window 0 items).length = _
  rw [edgesFrom_eq_zipIdx, List.length_map, List.length_zipIdx]

theorem startCursor_ofItems :
    (ofItems items window total).info.startCursor =
      (ofItems items window total).edges.head?.map Edge.cursor := by
  rw [List.head?_eq_getElem?, getElem?_edges]
  cases items with
  | nil => rfl
  | cons item rest =>
      show some (encodeCursor window.skip) = some (encodeCursor (window.offsetAt 0))
      rw [window.offsetAt_zero]

theorem endCursor_ofItems :
    (ofItems items window total).info.endCursor =
      (ofItems items window total).edges.getLast?.map Edge.cursor := by
  rw [List.getLast?_eq_getElem?, getElem?_edges, length_edges]
  cases items with
  | nil => rfl
  | cons item rest =>
      rw [List.getElem?_eq_getElem (by simp)]
      rfl

end Page

/-! ## Order of cursors -/

/-- `a.Before b` holds if the cursor of an edge is read as a lesser offset than that of another. -/
def Edge.Before (a b : Edge α) : Prop :=
  ∃ m n, decodeCursor a.cursor = .ok m ∧ decodeCursor b.cursor = .ok n ∧ m < n

theorem Edge.Before.cursor_ne {a b : Edge α} (h : a.Before b) : a.cursor ≠ b.cursor := by
  obtain ⟨m, n, hm, hn, hlt⟩ := h
  intro heq
  rw [heq, hn] at hm
  rw [Except.ok.inj hm] at hlt
  exact Int64.lt_irrefl hlt

namespace Page

variable {items : List α} (total : Int64)

/-- The cursor at an index is read as the offset there. -/
theorem decodeCursor_edge (hskip : 0 ≤ window.skip.toInt) (hlength : items.length < 2 ^ 63)
    {index : Nat} {edge : Edge α} (hedge : (ofItems items window total).edges[index]? = some edge) :
    decodeCursor edge.cursor = .ok (window.offsetAt index) ∧
      (window.offsetAt index).toInt = min (window.skip.toInt + index) Int64.maxValue.toInt := by
  rw [getElem?_edges] at hedge
  obtain ⟨node, hnode, rfl⟩ := Option.map_eq_some_iff.1 hedge
  obtain ⟨hindex, -⟩ := List.getElem?_eq_some_iff.1 hnode
  exact ⟨PageWindow.decodeCursor_offsetAt hskip (by omega),
    PageWindow.toInt_offsetAt hskip (by omega)⟩

/-- Cursors increase as long as their offsets are in range. -/
theorem pairwise_before (hskip : 0 ≤ window.skip.toInt) (hlength : items.length < 2 ^ 63)
    (hlast : window.skip.toInt + items.length - 1 ≤ Int64.maxValue.toInt) :
    (ofItems items window total).edges.Pairwise Edge.Before := by
  rw [List.pairwise_iff_getElem]
  intro i j hi hj hij
  have hlengthEdges := length_edges items window total
  obtain ⟨hreadI, hoffsetI⟩ := decodeCursor_edge total hskip hlength (List.getElem?_eq_getElem hi)
  obtain ⟨hreadJ, hoffsetJ⟩ := decodeCursor_edge total hskip hlength (List.getElem?_eq_getElem hj)
  refine ⟨_, _, hreadI, hreadJ, ?_⟩
  rw [Int64.lt_iff_toInt_lt, hoffsetI, hoffsetJ]
  omega

/-- Cursors are different ones exactly if their offsets are in range. -/
theorem nodup_cursors_iff (hskip : 0 ≤ window.skip.toInt) (hlength : items.length < 2 ^ 63) :
    ((ofItems items window total).edges.map Edge.cursor).Nodup ↔
      window.skip.toInt + items.length - 1 ≤ Int64.maxValue.toInt := by
  constructor
  · intro hnodup
    by_contra hlast
    have hmax := window.skip.toInt_le
    -- The cursors of the last two rows are both that of the last offset there is.
    have hcursor : ∀ index : Nat, index < items.length →
        Int64.maxValue.toInt ≤ window.skip.toInt + index →
        ((ofItems items window total).edges.map Edge.cursor)[index]? =
          some (encodeCursor Int64.maxValue) := by
      intro index hindex hreach
      rw [List.getElem?_map, getElem?_edges, List.getElem?_eq_getElem hindex,
        PageWindow.offsetAt_eq_maxValue hskip (by omega) hreach]
      rfl
    have hinside : items.length - 2 <
        ((ofItems items window total).edges.map Edge.cursor).length := by
      rw [List.length_map, length_edges]
      omega
    have hindices := (List.getElem?_inj hinside hnodup).1
      ((hcursor (items.length - 2) (by omega) (by omega)).trans
        (hcursor (items.length - 1) (by omega) (by omega)).symm)
    omega
  · intro hlast
    rw [List.Nodup, List.pairwise_map]
    exact (pairwise_before total hskip hlength hlast).imp Edge.Before.cursor_ne

/-! ## Changing rows -/

theorem run_mapM_edges {σ : Type} (change : α → StateM σ β) (edges : List (Edge α)) (state : σ) :
    let changed := (edges.mapM fun edge : Edge α => do
      return Edge.mk (← change edge.node) edge.cursor).run state
    (changed.1.map Edge.node, changed.2) = ((edges.map Edge.node).mapM change).run state ∧
      changed.1.map Edge.cursor = edges.map Edge.cursor := by
  induction edges generalizing state with
  | nil => exact ⟨rfl, rfl⟩
  | cons edge rest ih =>
      -- The rest is changed in the state that the first row leaves behind.
      obtain ⟨hnodes, hcursors⟩ := ih ((change edge.node).run state).2
      rw [List.map_cons, List.mapM_cons, List.mapM_cons]
      refine ⟨?_, congrArg (edge.cursor :: ·) hcursors⟩
      exact congrArg (fun result : List β × σ =>
        (((change edge.node).run state).1 :: result.1, result.2)) hnodes

/-- Rows are changed one after the other, each once, and nothing else is changed. -/
theorem run_mapM {σ : Type} (change : α → StateM σ β) (page : Page α) (state : σ) :
    let changed := (page.mapM change).run state
    (changed.1.nodes, changed.2) = (page.nodes.mapM change).run state ∧
      changed.1.edges.map Edge.cursor = page.edges.map Edge.cursor ∧
      changed.1.info = page.info := by
  obtain ⟨hnodes, hcursors⟩ := run_mapM_edges change page.edges state
  exact ⟨hnodes, hcursors, rfl⟩

end Page

/-! ## Metadata -/

/-- The metadata of a page is exact.  There is a next page exactly if there are rows behind the
window; each row has an edge, in their order; the first and the last cursor are those of the first
and the last edge, and missing exactly if there is none; the cursor of each row is read as its
offset or the last offset there is, so cursors increase, and are different ones, exactly as long as
offsets are in range.  Changing the rows of a page, each once and one after the other, keeps its
cursors and its metadata. -/
theorem page_metadata_exact {window : PageWindow} (hskip : 0 ≤ window.skip) (total : Int64)
    {items : List α} (hlength : items.length < 2 ^ 63) :
    (let page := Page.ofItems items window total
     (page.info.hasNext = true ↔
       window.skip.toInt + window.limit.toInt < total.toInt) ∧
     page.nodes = items ∧
     page.info.startCursor = page.edges.head?.map Edge.cursor ∧
     page.info.endCursor = page.edges.getLast?.map Edge.cursor ∧
     (page.info.startCursor = none ↔ items = []) ∧
     (page.info.endCursor = none ↔ items = []) ∧
     (∀ (index : Nat) (edge : Edge α), page.edges[index]? = some edge →
       ∃ offset, decodeCursor edge.cursor = .ok offset ∧
         offset.toInt = min (window.skip.toInt + index) Int64.maxValue.toInt) ∧
     (window.skip.toInt + items.length - 1 ≤ Int64.maxValue.toInt →
       page.edges.Pairwise Edge.Before) ∧
     ((page.edges.map Edge.cursor).Nodup ↔
       window.skip.toInt + items.length - 1 ≤ Int64.maxValue.toInt)) ∧
    ∀ (page : Page α) (β : Type),
      (∀ change : α → β, (page.map change).nodes = page.nodes.map change ∧
        (page.map change).edges.map Edge.cursor = page.edges.map Edge.cursor ∧
        (page.map change).info = page.info) ∧
      ∀ (σ : Type) (change : α → StateM σ β) (state : σ),
        let changed := (page.mapM change).run state
        (changed.1.nodes, changed.2) = (page.nodes.mapM change).run state ∧
          changed.1.edges.map Edge.cursor = page.edges.map Edge.cursor ∧
          changed.1.info = page.info := by
  rw [Int64.le_iff_toInt_le, Int64.toInt_zero] at hskip
  have hmissing : ∀ cursor : String,
      (if items.length = 0 then none else some cursor) = none ↔ items = [] := by
    intro cursor
    cases items <;> simp
  refine ⟨⟨?_, Page.nodes_ofItems items window total, Page.startCursor_ofItems items window total,
    Page.endCursor_ofItems items window total, hmissing _, hmissing _, ?_,
    Page.pairwise_before total hskip hlength, Page.nodup_cursors_iff total hskip hlength⟩, ?_⟩
  · show decide (_ < _) = true ↔ _
    rw [decide_eq_true_iff]
    exact saturatingAdd_lt_iff hskip
  · intro index edge hedge
    exact ⟨_, Page.decodeCursor_edge total hskip hlength hedge⟩
  · intro page β
    refine ⟨fun change => ⟨Page.nodes_map change page, ?_, rfl⟩,
      fun σ change => Page.run_mapM change page⟩
    show (page.edges.map _).map Edge.cursor = _
    rw [List.map_map]
    rfl

/-- Two rows at the last two offsets there are. -/
theorem page_metadata_exact_last_offsets :
    let window : PageWindow := ⟨9223372036854775806, 10⟩
    let page := Page.ofItems ["a", "b"] window 9223372036854775807
    0 ≤ window.skip ∧ ["a", "b"].length < 2 ^ 63 ∧ page.info.hasNext = false ∧
      page.edges.Pairwise Edge.Before := by
  intro window page
  have hskip : 0 ≤ window.skip := by decide
  have hlength : ["a", "b"].length < 2 ^ 63 := by decide
  obtain ⟨⟨hnext, -, -, -, -, -, -, hbefore, -⟩, -⟩ :=
    page_metadata_exact hskip 9223372036854775807 hlength
  refine ⟨hskip, hlength, ?_, hbefore (by decide)⟩
  exact Bool.eq_false_iff.2 (hnext.not.2 (by decide))

end TableQuery
