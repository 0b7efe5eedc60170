import HstongApi.Bytes
import HstongApi.CursorWalk

/-!
# `Paginate`

`Paginate` of the trade package is a walk over pages that starts at the cursor `"0"` and ends with a
page that is shorter than was asked for, or with a cursor that is empty or the one just used.

A list that is served in full pages is fetched completely (`paginate_complete`).

The walk has no limit on the number of pages. It stops at a cursor that was just sent, and not at one
that was sent before, so a Gateway that hands out two cursors in turn keeps it going for ever
(`paginate_backAndForth`). With finitely many cursors the walk returns exactly if the full pages that
the Gateway hands out do not lead back to a cursor again and again (`paginate_returns_iff`). That is a
condition on the Gateway's answers: which page it has for which cursor, and which of the pages are full
and come with a new cursor.
-/

namespace HstongApi.TradePages

open CursorWalk

/-- `Page` -/
structure Page (α : Type) where
  /-- the rows -/
  items : List α
  /-- the `queryParamStr` of the next request -/
  cursor : Bytes

/-- `DefaultPageSize` -/
def defaultPageSize : ℤ := 20

/-- `MaxPageSize` -/
def maxPageSize : ℤ := 99

/-- `ClampPageSize` -/
def clampPageSize (pageSize : ℤ) : ℤ :=
  if pageSize ≤ 0 then defaultPageSize
  else if maxPageSize < pageSize then maxPageSize
  else pageSize

theorem clampPageSize_pos (pageSize : ℤ) : 0 < clampPageSize pageSize := by
  unfold clampPageSize
  split
  · decide
  · split
    · decide
    · omega

section

variable {σ α ε : Type}

/-- `PageFunc`: the page for a size and a cursor. -/
abbrev PageFunc (σ α ε : Type) : Type := ℤ → Bytes → σ → σ × Except ε (Page α)

/-- The pages of a size: the rows and the next cursor. -/
def pages (size : ℤ) (fetch : PageFunc σ α ε) : Fetch σ Bytes α ε := fun cursor w =>
  (fetch size cursor w).map id (·.map fun page => (page.items, page.cursor))

/-- The loop of `Paginate`, for a size that is clamped. -/
def pager (ctxErr : Look σ ε) (size : ℤ) (fetch : PageFunc σ α ε) : Pager σ Bytes α ε where
  ctxErr := ctxErr
  fetch := pages size fetch
  stop cursor items next :=
    items.length = 0 || (items.length : ℤ) < size || next = [] || next = cursor

/-- `Paginate`, as far as the fuel goes; the function may be nil. -/
def paginate (ctxErr : Look σ ε) (pageSize : ℤ) (fetch : Option (PageFunc σ α ε)) (fuel : ℕ)
    (w : σ) : Turn σ Bytes α ε :=
  match fetch with
  | none => .returned { world := w, cursor := bytes "0" } none
  | some fetch =>
    (pager ctxErr (clampPageSize pageSize) fetch).walk fuel { world := w, cursor := bytes "0" }

variable {size : ℤ} {fetch : PageFunc σ α ε} {list : List α} {name : ℕ → Bytes}

theorem fetch_pager (ctxErr : Look σ ε) {cursor : Bytes} {w : σ} {page : Page α}
    (h : (fetch size cursor w).2 = .ok page) :
    ((pager ctxErr size fetch).fetch cursor w).2 = .ok (page.items, page.cursor) := by
  change (fetch size cursor w).2.map _ = _
  rw [h]
  rfl

/-! ## Lists in full pages -/

/-- **A Gateway with a list**: the cursor of each place is answered with the next rows, at most as many
as asked for, and the cursor of the place behind them. The cursors of different places differ. -/
structure Lists (fetch : PageFunc σ α ε) (size : ℤ) (list : List α) (name : ℕ → Bytes) : Prop where
  /-- the walk begins at the first row -/
  first : name 0 = bytes "0"
  /-- no two places have one cursor -/
  fresh : ∀ i ≤ list.length, ∀ j ≤ list.length, name i = name j → i = j
  /-- every place has one -/
  nonempty : ∀ i ≤ list.length, name i ≠ []
  /-- the page at a place, whatever happened before -/
  answer : ∀ i ≤ list.length, ∀ w, (fetch size (name i) w).2 =
    .ok ⟨(list.drop i).take size.toNat, name (i + ((list.drop i).take size.toNat).length)⟩

/-- The walk goes on after a full page, and ends with a page that is not. -/
theorem Lists.stop_iff (h : Lists fetch size list name) (hsize : 0 < size)
    (ctxErr : Look σ ε) {i : ℕ} (hi : i ≤ list.length) :
    (pager ctxErr size fetch).stop (name i)
        ((list.drop i).take size.toNat)
        (name (i + ((list.drop i).take size.toNat).length)) = true ↔
      list.length < i + size.toNat := by
  have hlength : ((list.drop i).take size.toNat).length = min size.toNat (list.length - i) := by
    rw [List.length_take, List.length_drop]
  have hplace : i + min size.toNat (list.length - i) ≤ list.length := by omega
  simp only [pager, hlength, Bool.or_eq_true, decide_eq_true_eq, h.nonempty _ hplace, or_false]
  constructor
  · rintro ((hzero | hshort) | hcursor)
    · omega
    · omega
    · have := h.fresh _ hplace i hi hcursor
      omega
  · intro hlt
    omega

theorem Lists.serves (h : Lists fetch size list name) (hsize : 0 < size) {ctxErr : Look σ ε}
    (hlive : ∀ w, (ctxErr w).2 = none) :
    (pager ctxErr size fetch).Serves list name fun _ => size.toNat where
  live := hlive
  page i hi := by
    refine ⟨_, fun w => fetch_pager ctxErr (h.answer i hi w), ?_⟩
    by_cases hshort : list.length < i + size.toNat
    · rw [if_pos ((h.stop_iff hsize ctxErr hi).mpr hshort)]
      exact hshort.le
    · rw [if_neg (mt (h.stop_iff hsize ctxErr hi).mp hshort)]
      refine ⟨not_lt.mp hshort, ?_⟩
      rw [List.length_take, List.length_drop, min_eq_left (by omega)]

theorem position_const (n k : ℕ) : Pager.position (fun _ => n) k = k * n := by
  induction k with
  | zero => rw [Pager.position, Nat.zero_mul]
  | succ k ih => rw [Pager.position, ih, Nat.succ_mul]

/-- **`Paginate` is complete**: it returns the whole list, each row once and in order, and has fetched
each page once. The last of the pages is the one that is not full, and may be empty. -/
theorem paginate_complete (ctxErr : Look σ ε) (hlive : ∀ w, (ctxErr w).2 = none)
    (pageSize : ℤ) (fetch : PageFunc σ α ε) (list : List α) (name : ℕ → Bytes)
    (h : Lists fetch (clampPageSize pageSize) list name) (w : σ) (fuel : ℕ)
    (hfuel : list.length / (clampPageSize pageSize).toNat < fuel) :
    ∃ s, paginate ctxErr pageSize (some fetch) fuel w = .returned s none ∧ s.all = list ∧
      s.fetched.map Fetched.cursor =
        (List.range (list.length / (clampPageSize pageSize).toNat + 1)).map
          (fun k => name (k * (clampPageSize pageSize).toNat)) ∧
      (s.fetched.map Fetched.cursor).Nodup := by
  have hsize := clampPageSize_pos pageSize
  have hserving := (h.serves hsize hlive).walk fuel w
  rw [h.first] at hserving
  rw [paginate]
  generalize clampPageSize pageSize = size at *
  have hpos : 0 < size.toNat := by omega
  generalize Pager.walk _ fuel _ = t at hserving ⊢
  cases t with
  | going s =>
    have hle := hserving.1
    rw [position_const, ← Nat.le_div_iff_mul_le hpos] at hle
    omega
  | returned s err =>
    obtain ⟨rfl, hall, k, -, hle, ⟨next, hanswer, hstop⟩, hfetched⟩ := hserving
    simp only [position_const] at hle hanswer hstop hfetched
    have hpage := (fetch_pager ctxErr (h.answer _ hle w)).symm.trans (hanswer w)
    cases hpage
    have hshort := (h.stop_iff hsize ctxErr hle).mp hstop
    have hlast : list.length / size.toNat = k :=
      Nat.div_eq_of_lt_le hle (by rwa [Nat.succ_mul])
    refine ⟨s, rfl, hall, by rw [hlast, hfetched], ?_⟩
    rw [hfetched]
    refine List.Nodup.map_on (fun i hi j hj hname => ?_) List.nodup_range
    have hplace : ∀ m ∈ List.range (k + 1), m * size.toNat ≤ list.length := fun m hm =>
      (Nat.mul_le_mul_right _ (Nat.lt_succ_iff.mp (List.mem_range.mp hm))).trans hle
    exact Nat.eq_of_mul_eq_mul_right hpos (h.fresh _ (hplace i hi) _ (hplace j hj) hname)

end

/-- A Gateway with a list, and a world in which nothing happens. The cursor of the place `i` is made of
`i + 1` zeros. -/
def zeros (list : List ℕ) : PageFunc Unit ℕ Unit := fun size cursor w =>
  let items := (list.drop (cursor.length - 1)).take size.toNat
  (w, .ok ⟨items, cursor ++ List.replicate items.length 48⟩)

theorem lists_zeros (list : List ℕ) (size : ℤ) :
    Lists (zeros list) size list fun i => List.replicate (i + 1) 48 where
  first := by decide +kernel
  fresh i _ j _ h := by simpa using congrArg List.length h
  nonempty i _ := List.cons_ne_nil _ _
  answer i _ w := by simp [zeros, Nat.add_right_comm]

/-- Four rows in pages of two. -/
theorem paginate_complete_zeros :
    ∃ s, paginate (fun w => (w, none)) 2 (some (zeros [7, 8, 9, 10])) 3 () = .returned s none ∧
      s.all = [7, 8, 9, 10] ∧ s.fetched.map Fetched.cursor =
        (List.range 3).map (fun k => List.replicate (k * 2 + 1) 48) ∧
      (s.fetched.map Fetched.cursor).Nodup :=
  paginate_complete (fun w => (w, none)) (fun _ => rfl) 2 (zeros [7, 8, 9, 10]) [7, 8, 9, 10] _
    (lists_zeros _ _) () 3 (by decide)

/-! ## When `Paginate` returns -/

section

variable {σ α ε : Type}

/-- **`Paginate` returns** after finitely many fetches. -/
def Returns (ctxErr : Look σ ε) (pageSize : ℤ) (fetch : PageFunc σ α ε) (w : σ) : Prop :=
  ∃ fuel s err, paginate ctxErr pageSize (some fetch) fuel w = .returned s err

/-- **The page keeps the walk going**: it is full, and comes with a cursor that is not empty and not the
one that was sent. -/
structure Continues (size : ℤ) (f : Fetched Bytes α) : Prop where
  full : size ≤ f.rows.length
  nonempty : f.next ≠ []
  fresh : f.next ≠ f.cursor

theorem stop_eq_false_iff {ctxErr : Look σ ε} {size : ℤ} (hsize : 0 < size)
    {fetch : PageFunc σ α ε} (f : Fetched Bytes α) :
    (pager ctxErr size fetch).stop f.cursor f.rows f.next = false ↔ Continues size f := by
  simp only [pager, Bool.or_eq_false_iff, decide_eq_false_iff_not]
  constructor
  · rintro ⟨⟨⟨-, hfull⟩, hnonempty⟩, hfresh⟩
    exact ⟨not_lt.mp hfull, hnonempty, hfresh⟩
  · rintro ⟨hfull, hnonempty, hfresh⟩
    exact ⟨⟨⟨by omega, not_lt.mpr hfull⟩, hnonempty⟩, hfresh⟩

theorem mem_of_fetch_pager {ctxErr : Look σ ε} {size : ℤ} {fetch : PageFunc σ α ε}
    {cursors : Set Bytes} (hcursors : ∀ c w page, (fetch size c w).2 = .ok page → page.cursor ∈ cursors)
    (c : Bytes) (w : σ) (items : List α) (next : Bytes)
    (h : ((pager ctxErr size fetch).fetch c w).2 = .ok (items, next)) : next ∈ cursors := by
  change (fetch size c w).2.map _ = _ at h
  cases hpage : (fetch size c w).2 with
  | error err =>
    rw [hpage] at h
    cases h
  | ok page =>
    rw [hpage] at h
    cases h
    exact hcursors c w page hpage

/-- **When `Paginate` returns**, with finitely many cursors and a context that is never done. From the
cursor `"0"` on the Gateway hands out pages that keep the walk going. The walk returns exactly if these
lead to no cursor infinitely often. -/
theorem paginate_returns_iff (ctxErr : Look σ ε) (pageSize : ℤ) (fetch : PageFunc σ α ε)
    (cursors : Set Bytes) (hfinite : cursors.Finite)
    (hcursors : ∀ c w page, (fetch (clampPageSize pageSize) c w).2 = .ok page → page.cursor ∈ cursors)
    (w : σ) :
    let size := clampPageSize pageSize
    Returns ctxErr pageSize fetch w ↔
      ∀ c, {n | LeadsTo ctxErr (pages size fetch) (Continues size) w (bytes "0") n c}.Finite :=
  Pager.returns_iff_finite (p := pager ctxErr _ fetch) (stop_eq_false_iff (clampPageSize_pos pageSize))
    hfinite (mem_of_fetch_pager hcursors)

end

/-- A Gateway that goes back and forth between two cursors. -/
def backAndForth : PageFunc Unit ℕ Unit := fun size cursor w =>
  (w, .ok ⟨List.replicate size.toNat 0, if cursor = bytes "A" then bytes "B" else bytes "A"⟩)

/-- Every page is full and has another cursor than the one that was used. -/
theorem going_backAndForth (s : Walk Unit Bytes ℕ) :
    ∃ s', (pager (fun w => (w, none)) (clampPageSize 1) backAndForth).turn s = .going s' := by
  have hA : bytes "A" ≠ [] ∧ bytes "B" ≠ [] ∧ bytes "B" ≠ bytes "A" := by decide +kernel
  have hstop : (pager (fun w => (w, none)) 1 backAndForth).stop s.cursor [0]
      (if s.cursor = bytes "A" then bytes "B" else bytes "A") = false := by
    by_cases hcursor : s.cursor = bytes "A"
    · simp [pager, hcursor, hA]
    · simp [pager, hcursor, hA, Ne.symm hcursor]
  exact ⟨_, if_neg (Bool.eq_false_iff.mp hstop)⟩

theorem not_returns_backAndForth : ¬ Returns (fun w => (w, none)) 1 backAndForth () := by
  rintro ⟨n, s, err, h⟩
  obtain ⟨s', hs'⟩ := Pager.going_walk going_backAndForth n { world := (), cursor := bytes "0" }
  cases hs'.symm.trans h

theorem cursor_backAndForth (c : Bytes) (w : Unit) (page : Page ℕ)
    (h : (backAndForth (clampPageSize 1) c w).2 = .ok page) :
    page.cursor ∈ ({bytes "A", bytes "B"} : Set Bytes) := by
  cases h
  change (if c = bytes "A" then bytes "B" else bytes "A") ∈ _
  split
  · exact .inr rfl
  · exact .inl rfl

/-- So its pages lead to one of the cursors again and again. -/
theorem paginate_returns_iff_backAndForth :
    ∃ c, {n | LeadsTo (fun w => (w, none)) (pages 1 backAndForth) (Continues 1) () (bytes "0") n c}.Infinite := by
  by_contra hfinite
  simp only [not_exists, Set.not_infinite] at hfinite
  exact not_returns_backAndForth ((paginate_returns_iff (fun w => (w, none)) 1 backAndForth
    {bytes "A", bytes "B"} (Set.toFinite _) cursor_backAndForth ()).mpr hfinite)

/-- `Paginate` does not return from this Gateway, although it has two cursors only. -/
theorem paginate_backAndForth :
    (∀ c w page, (backAndForth (clampPageSize 1) c w).2 = .ok page →
      page.cursor ∈ ({bytes "A", bytes "B"} : Set Bytes)) ∧
    ¬ Returns (fun w => (w, none)) 1 backAndForth () :=
  ⟨cursor_backAndForth, not_returns_backAndForth⟩

end HstongApi.TradePages
