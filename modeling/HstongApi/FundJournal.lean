import HstongApi.CursorWalk
import HstongApi.Domain
import HstongApi.TradingOrders

/-!
# The journal of funds

`RealFundJourList` and `HistoryFundJourList` walk over the pages of the journal. The walk ends with an
empty page, with a cursor that is empty or the one just used, and after a thousand pages.

The limit is no error. So a walk without an error has come to the end of the journal, or it has
fetched a thousand pages, and then it may also have come to the same pages again (`walk_success`).

What a walk returns is made of what the Gateway answers from the caller's cursor on (`MadeOf`): the
rows are those of the pages in the order in which they were answered, each page was asked for with the
cursor that came with the one before, and an error is the one that kept the next page from coming. The
two services are such walks, over the replies of their routes (`fundJourLists_madeOf`). The next cursor
is that of the last row of a reply, and the rows are converted; an amount that the decimal package does
not read makes the conversion panic, and then nothing is returned.
-/

namespace HstongApi.AccountService

open CursorWalk DecimalPackage

/-! ## The walk -/

/-- `DefaultPageSize` -/
def defaultPageSize : ℤ := 50

/-- `MaxPageSize` -/
def maxPageSize : ℤ := 99

/-- `maxPages` -/
def maxPages : ℕ := 1000

/-- `clampPageSize` -/
def clampPageSize (pageSize : ℤ) : ℤ :=
  if pageSize ≤ 0 then defaultPageSize
  else if maxPageSize < pageSize then maxPageSize
  else pageSize

section

variable {σ ρ ε : Type}

/-- What fetches a page: the rows and the next cursor, for a size and a cursor. -/
abbrev PageFetch (σ ρ ε : Type) : Type := ℤ → Fetch σ Bytes ρ ε

/-- The loop of `walkFundJourPages`, for a size that is clamped. -/
def pager (ctxErr : Look σ ε) (size : ℤ) (fetch : PageFetch σ ρ ε) : Pager σ Bytes ρ ε where
  ctxErr := ctxErr
  fetch := fetch size
  stop cursor entries next := entries.length = 0 || next = [] || next = cursor

/-- `walkFundJourPages`: the rows, with the fetches, and the error. -/
def walkFundJourPages (ctxErr : Look σ ε) (pageSize : ℤ) (cursor : Bytes)
    (fetch : PageFetch σ ρ ε) (w : σ) : Walk σ Bytes ρ × Option ε :=
  match (pager ctxErr (clampPageSize pageSize) fetch).walk maxPages { world := w, cursor } with
  | .returned s err => (s, err)
  | .going s => (s, none)

/-- The page is the last one: it is empty, it has no cursor, or it has the cursor that was used. -/
def IsLast (f : Fetched Bytes ρ) : Prop := f.rows = [] ∨ f.next = [] ∨ f.next = f.cursor

theorem stop_iff_isLast (ctxErr : Look σ ε) (size : ℤ) (fetch : PageFetch σ ρ ε)
    (f : Fetched Bytes ρ) :
    (pager ctxErr size fetch).stop f.cursor f.rows f.next = true ↔ IsLast f := by
  simp only [pager, IsLast, Bool.or_eq_true, decide_eq_true_eq, List.length_eq_zero_iff, or_assoc]

/-! ## What a walk is made of -/

/-- **What a walk makes of the answers** from a world and a cursor on. The pages are a chain, and only
the last of them may be one to end with. -/
inductive MadeOf (ctxErr : Look σ ε) (fetch : Fetch σ Bytes ρ ε) (w : σ) (cursor : Bytes) :
    List ρ × Option ε → Prop
  /-- the walk came to a last page -/
  | last {fetched : List (Fetched Bytes ρ)} {f : Fetched Bytes ρ} {w' : σ} {c : Bytes}
    (h : Chain ctxErr fetch w cursor (fetched ++ [f]) w' c) (hlength : fetched.length < maxPages)
    (hgoes : ∀ g ∈ fetched, ¬ IsLast g) (hlast : IsLast f) :
    MadeOf ctxErr fetch w cursor ((fetched ++ [f]).flatMap Fetched.rows, none)
  /-- it came to the limit -/
  | limit {fetched : List (Fetched Bytes ρ)} {w' : σ} {c : Bytes}
    (h : Chain ctxErr fetch w cursor fetched w' c) (hlength : fetched.length = maxPages)
    (hgoes : ∀ g ∈ fetched, ¬ IsLast g) :
    MadeOf ctxErr fetch w cursor (fetched.flatMap Fetched.rows, none)
  /-- the next page did not come -/
  | error {fetched : List (Fetched Bytes ρ)} {w' : σ} {c : Bytes} {err : ε}
    (h : Chain ctxErr fetch w cursor fetched w' c) (hlength : fetched.length < maxPages)
    (hgoes : ∀ g ∈ fetched, ¬ IsLast g) (hfails : Fails ctxErr fetch w' c err) :
    MadeOf ctxErr fetch w cursor (fetched.flatMap Fetched.rows, some err)

/-- The walk came to the last page. -/
def ReachedLast (s : Walk σ Bytes ρ) : Prop := ∃ f, s.fetched.getLast? = some f ∧ IsLast f

/-- After a page with which the walk goes on comes another one. -/
theorem not_isLast {ctxErr : Look σ ε} {size : ℤ} {fetch : PageFetch σ ρ ε} {w : σ}
    {start : Bytes} {s : Walk σ Bytes ρ} (h : (pager ctxErr size fetch).Linked w start s)
    (f : Fetched Bytes ρ) (hf : f ∈ s.fetched) : ¬ IsLast f := by
  intro hlast
  have hgoes := h.goes f hf
  rw [(stop_iff_isLast _ _ _ f).mpr hlast] at hgoes
  cases hgoes

/-- As long as the walk goes on, the page was not the last one. -/
theorem not_reachedLast {ctxErr : Look σ ε} {size : ℤ} {fetch : PageFetch σ ρ ε} {w : σ}
    {start : Bytes} {s : Walk σ Bytes ρ} (h : (pager ctxErr size fetch).Linked w start s) :
    ¬ReachedLast s := by
  rintro ⟨f, hf, hlast⟩
  exact not_isLast h f (List.mem_of_getLast? hf) hlast

/-- **What the walk returns is made of the answers.** -/
theorem walkFundJourPages_madeOf (ctxErr : Look σ ε) (pageSize : ℤ) (cursor : Bytes)
    (fetch : PageFetch σ ρ ε) (w : σ) (s : Walk σ Bytes ρ) (err : Option ε)
    (h : walkFundJourPages ctxErr pageSize cursor fetch w = (s, err)) :
    MadeOf ctxErr (fetch (clampPageSize pageSize)) w cursor (s.all, err) := by
  have hresult := (pager ctxErr (clampPageSize pageSize) fetch).walk_linked maxPages w cursor
  rw [walkFundJourPages] at h
  generalize Pager.walk _ _ _ = t at h hresult
  cases t with
  | going s' =>
    cases h
    obtain ⟨hlinked, hlength⟩ := hresult
    rw [hlinked.all]
    exact .limit hlinked.chain hlength (not_isLast hlinked)
  | returned s' err' =>
    cases h
    cases hresult with
    | error hlinked hlength hfails =>
      rw [hlinked.all]
      exact .error hlinked.chain hlength (not_isLast hlinked) hfails
    | @stop s w' rows next hlinked hlength hchain hstop =>
      have hall : (s.add w' rows next).all =
          (s.fetched ++ [Fetched.mk s.cursor rows next]).flatMap Fetched.rows := by
        simp [Walk.add, hlinked.all]
      rw [hall]
      exact .last hchain hlength (not_isLast hlinked) ((stop_iff_isLast _ _ _ _).mp hstop)

/-- **How the walk ends.** The rows are those of its fetches, which are a chain from the cursor it was
given. Without an error it came to the last page or to the limit. -/
theorem walkFundJourPages_ends (ctxErr : Look σ ε) (pageSize : ℤ) (cursor : Bytes)
    (fetch : PageFetch σ ρ ε) (w : σ) (s : Walk σ Bytes ρ) (err : Option ε)
    (h : walkFundJourPages ctxErr pageSize cursor fetch w = (s, err)) :
    s.all = s.fetched.flatMap Fetched.rows ∧
      (∃ w' c, Chain ctxErr (fetch (clampPageSize pageSize)) w cursor s.fetched w' c) ∧
      (err = none → ReachedLast s ∨ s.fetched.length = maxPages) ∧
      (ReachedLast s → (pager ctxErr (clampPageSize pageSize) fetch).Ended w cursor maxPages s none) := by
  have hresult := (pager ctxErr (clampPageSize pageSize) fetch).walk_linked maxPages w cursor
  rw [walkFundJourPages] at h
  generalize Pager.walk _ _ _ = t at h hresult
  cases t with
  | going s' =>
    cases h
    exact ⟨hresult.1.all, ⟨_, _, hresult.1.chain⟩, fun _ => .inr hresult.2,
      fun hlast => (not_reachedLast hresult.1 hlast).elim⟩
  | returned s' err' =>
    cases h
    cases hresult with
    | error hlinked =>
      exact ⟨hlinked.all, ⟨_, _, hlinked.chain⟩, nofun, fun hlast => (not_reachedLast hlinked hlast).elim⟩
    | @stop s w' rows next hlinked hlength hchain hstop =>
      have hlast : ReachedLast (s.add w' rows next) :=
        ⟨⟨s.cursor, rows, next⟩, by simp [Walk.add], (stop_iff_isLast _ _ _ _).mp hstop⟩
      exact ⟨by simp [Walk.add, hlinked.all], ⟨_, _, hchain⟩, fun _ => .inl hlast,
        fun _ => .stop hlinked hlength hchain hstop⟩

/-! ## Journals -/

/-- **A Gateway with a journal**: the cursor of each place is answered with some of the next rows and
the cursor of the place behind them, which may be missing at the end. The cursors of different
places differ. -/
structure Journal (fetch : PageFetch σ ρ ε) (size : ℤ) (list : List ρ) (name : ℕ → Bytes)
    (len : ℕ → ℕ) : Prop where
  /-- no two places have one cursor -/
  fresh : ∀ i ≤ list.length, ∀ j ≤ list.length, name i = name j → i = j
  /-- every place has one -/
  nonempty : ∀ i ≤ list.length, name i ≠ []
  /-- before the end a page has rows -/
  len_pos : ∀ i < list.length, 0 < len i
  /-- and no more than are left -/
  len_le : ∀ i < list.length, i + len i ≤ list.length
  /-- the page at a place, whatever happened before -/
  answer : ∀ i < list.length, ∃ next, (next = name (i + len i) ∨ i + len i = list.length ∧ next = []) ∧
    ∀ w, (fetch size (name i) w).2 = .ok ((list.drop i).take (len i), next)
  /-- the page behind the last row is empty -/
  last : ∃ next, ∀ w, (fetch size (name list.length) w).2 = .ok ([], next)

theorem Journal.serves {fetch : PageFetch σ ρ ε} {size : ℤ} {list : List ρ} {name : ℕ → Bytes}
    {len : ℕ → ℕ} (h : Journal fetch size list name len) {ctxErr : Look σ ε}
    (hlive : ∀ w, (ctxErr w).2 = none) : (pager ctxErr size fetch).Serves list name len where
  live := hlive
  page i hi := by
    rcases hi.eq_or_lt with rfl | hlt
    · obtain ⟨next, hnext⟩ := h.last
      have hnil : (list.drop list.length).take (len list.length) = [] := by
        rw [List.drop_length, List.take_nil]
      rw [hnil]
      refine ⟨next, hnext, ?_⟩
      rw [if_pos ((stop_iff_isLast _ _ _ ⟨name list.length, [], next⟩).mpr (.inl rfl))]
      exact Nat.le_add_right ..
    · obtain ⟨next, hnext, hanswer⟩ := h.answer i hlt
      have hpos := h.len_pos i hlt
      have hle := h.len_le i hlt
      have hrows : (list.drop i).take (len i) ≠ [] := by
        rw [← List.length_pos_iff, List.length_take, List.length_drop]
        omega
      refine ⟨next, hanswer, ?_⟩
      have hstop := stop_iff_isLast ctxErr size fetch ⟨name i, (list.drop i).take (len i), next⟩
      split
      · rename_i hlast
        obtain hempty | hmissing | hsame := hstop.mp hlast
        · exact absurd hempty hrows
        · rcases hnext with rfl | ⟨hend, -⟩
          · exact absurd hmissing (h.nonempty _ hle)
          · exact hend.ge
        · rcases hnext with rfl | ⟨hend, rfl⟩
          · have := h.fresh _ hle i hi hsame
            omega
          · exact hend.ge
      · rename_i hgoes
        refine ⟨hle, hnext.resolve_right fun hend => hgoes (hstop.mpr (.inr (.inl hend.2)))⟩

/-- **What a fund-journal walk has fetched when it reports success**: it came to the last page, or it
fetched a thousand of them. The rows are those of the pages, in order, and the pages are those that the
Gateway answered from the cursor on. If every cursor is always answered in the same way and the walk
came to the last page, it fetched no page twice; and if the Gateway has a journal, the rows are the
whole journal, or its first thousand pages. -/
theorem walk_success (ctxErr : Look σ ε) (pageSize : ℤ) (cursor : Bytes)
    (fetch : PageFetch σ ρ ε) (w : σ) :
    let r := walkFundJourPages ctxErr pageSize cursor fetch w
    r.1.all = r.1.fetched.flatMap Fetched.rows ∧
      (∃ w' c, Chain ctxErr (fetch (clampPageSize pageSize)) w cursor r.1.fetched w' c) ∧
      (r.2 = none → ReachedLast r.1 ∨ r.1.fetched.length = maxPages) ∧
      (ReachedLast r.1 →
        (∀ c w w', (fetch (clampPageSize pageSize) c w).2 = (fetch (clampPageSize pageSize) c w').2) →
        (r.1.fetched.map Fetched.cursor).Nodup) ∧
      ∀ (list : List ρ) (name : ℕ → Bytes) (len : ℕ → ℕ), (∀ w, (ctxErr w).2 = none) →
        Journal fetch (clampPageSize pageSize) list name len → cursor = name 0 →
        r.2 = none ∧ (r.1.all = list ∨ r.1.fetched.length = maxPages ∧
          r.1.all = list.take (Pager.position len maxPages)) := by
  obtain ⟨hall, hchain, hsuccess, hlast⟩ := walkFundJourPages_ends ctxErr pageSize cursor fetch w _ _ rfl
  refine ⟨hall, hchain, hsuccess, fun hreached hstateless => ?_, ?_⟩
  · exact Pager.Ended.nodup (p := pager ctxErr _ fetch) hstateless (hlast hreached)
  rintro list name len hlive hjournal rfl
  have hserving := (hjournal.serves hlive).walk maxPages w
  simp only [walkFundJourPages]
  generalize Pager.walk _ _ _ = t at hserving ⊢
  cases t with
  | returned s err =>
    obtain ⟨rfl, hlist, -⟩ := hserving
    exact ⟨rfl, .inl hlist⟩
  | going s =>
    obtain ⟨-, -, hlist, hfetched⟩ := hserving
    refine ⟨rfl, .inr ⟨?_, hlist⟩⟩
    simpa using congrArg List.length hfetched

/-- A walk that goes on after every page is cut off at the limit, without an error. -/
theorem walkFundJourPages_of_going {ctxErr : Look σ ε} {pageSize : ℤ} {cursor : Bytes}
    {fetch : PageFetch σ ρ ε} {w : σ}
    (hgoing : ∀ s, ∃ s', (pager ctxErr (clampPageSize pageSize) fetch).turn s = .going s') :
    ∃ s, walkFundJourPages ctxErr pageSize cursor fetch w = (s, none) ∧
      (pager ctxErr (clampPageSize pageSize) fetch).Linked w cursor s ∧
      s.fetched.length = maxPages := by
  obtain ⟨s, hs⟩ := Pager.going_walk hgoing maxPages { world := w, cursor }
  have hresult := (pager ctxErr (clampPageSize pageSize) fetch).walk_linked maxPages w cursor
  rw [hs] at hresult
  exact ⟨s, by rw [walkFundJourPages, hs], hresult⟩

end

/-- A Gateway that serves a list in pages of `n` rows. The cursor of the place `i` is made of `i + 1`
zeros. -/
def inPages (n : ℕ) (list : List ℕ) : PageFetch Unit ℕ Unit := fun _ cursor w =>
  let rows := (list.drop (cursor.length - 1)).take n
  (w, .ok (rows, cursor ++ List.replicate rows.length 48))

theorem journal_inPages {n : ℕ} (hn : 0 < n) (list : List ℕ) (size : ℤ) :
    Journal (inPages n list) size list (fun i => List.replicate (i + 1) 48)
      (fun i => min n (list.length - i)) where
  fresh i _ j _ h := by simpa using congrArg List.length h
  nonempty i _ := List.cons_ne_nil _ _
  len_pos i hi := by omega
  len_le i hi := by omega
  answer i hi := by
    refine ⟨_, .inl rfl, fun w => ?_⟩
    have hrows : (list.drop i).take (min n (list.length - i)) = (list.drop i).take n := by
      rw [← List.length_drop, ← List.take_take, List.take_length]
    simp [inPages, hrows, Nat.add_right_comm]
  last := ⟨_, fun w => by simp [inPages]; rfl⟩

/-- Three rows in pages of two: after them comes an empty page. -/
theorem walk_success_inPages :
    let r := walkFundJourPages (fun w => (w, none)) 10 (bytes "0") (inPages 2 [7, 8, 9]) ()
    r.2 = none ∧ r.1.all = [7, 8, 9] ∧ r.1.fetched.map Fetched.rows = [[7, 8], [9], []] ∧
      (r.1.fetched.map Fetched.cursor).Nodup := by
  have hrows : (walkFundJourPages (fun w => (w, none)) 10 (bytes "0") (inPages 2 [7, 8, 9])
      ()).1.fetched.map Fetched.rows = [[7, 8], [9], []] := by decide +kernel
  obtain ⟨hall, -, hsuccess, hnodup, hjournal⟩ :=
    walk_success (fun w => (w, none)) 10 (bytes "0") (inPages 2 [7, 8, 9]) ()
  obtain ⟨herr, -⟩ := hjournal [7, 8, 9] _ _ (fun _ => rfl) (journal_inPages Nat.two_pos _ _)
    (by decide +kernel)
  refine ⟨herr, ?_, hrows, hnodup ((hsuccess herr).resolve_right ?_) fun _ _ _ => rfl⟩
  · rw [hall, List.flatMap_def, hrows]
    rfl
  · rw [← List.length_map Fetched.rows, hrows]
    decide

/-- A Gateway that has a row and a new cursor for every cursor. -/
def endless : PageFetch Unit ℕ Unit := fun _ cursor w => (w, .ok ([0], cursor ++ [120]))

theorem going_endless (size : ℤ) (s : Walk Unit Bytes ℕ) :
    ∃ s', (pager (fun w => (w, none)) size endless).turn s = .going s' := by
  have hstop : (pager (fun w => (w, none)) size endless).stop s.cursor [0] (s.cursor ++ [120]) =
      false := by
    simp [pager]
  exact ⟨_, if_neg (Bool.eq_false_iff.mp hstop)⟩

/-- A Gateway that goes back and forth between two cursors. -/
def backAndForth : PageFetch Unit ℕ Unit := fun _ cursor w =>
  (w, .ok ([0], if cursor = bytes "A" then bytes "B" else bytes "A"))

theorem going_backAndForth (size : ℤ) (s : Walk Unit Bytes ℕ) :
    ∃ s', (pager (fun w => (w, none)) size backAndForth).turn s = .going s' := by
  have hA : bytes "A" ≠ [] ∧ bytes "B" ≠ [] ∧ bytes "B" ≠ bytes "A" := by decide +kernel
  have hstop : (pager (fun w => (w, none)) size backAndForth).stop s.cursor [0]
      (if s.cursor = bytes "A" then bytes "B" else bytes "A") = false := by
    by_cases hcursor : s.cursor = bytes "A"
    · simp [pager, hcursor, hA]
    · simp [pager, hcursor, hA, Ne.symm hcursor]
  exact ⟨_, if_neg (Bool.eq_false_iff.mp hstop)⟩

/-- The walk reports success without having come to a last page, and after having fetched the same
pages again and again. -/
theorem walk_cut_off :
    (let r := walkFundJourPages (fun w => (w, none)) 10 (bytes "0") endless ();
      r.2 = none ∧ ¬ReachedLast r.1) ∧
    (let r := walkFundJourPages (fun w => (w, none)) 10 (bytes "0") backAndForth ();
      r.2 = none ∧ ¬(r.1.fetched.map Fetched.cursor).Nodup) := by
  constructor
  · obtain ⟨s, hs, hlinked, -⟩ := walkFundJourPages_of_going (w := ()) (going_endless (clampPageSize 10))
    rw [hs]
    exact ⟨rfl, not_reachedLast hlinked⟩
  · obtain ⟨s, hs, hlinked, hlength⟩ :=
      walkFundJourPages_of_going (w := ()) (going_backAndForth (clampPageSize 10))
    rw [hs]
    refine ⟨rfl, fun hnodup => ?_⟩
    have hsubset : s.fetched.map Fetched.cursor ⊆ [bytes "0", bytes "A", bytes "B"] := by
      intro c hc
      have hlinks : c ∈ bytes "0" :: s.fetched.map Fetched.next :=
        hlinked.chain.links ▸ List.mem_append_left _ hc
      rcases List.mem_cons.mp hlinks with rfl | hnext
      · exact List.mem_cons_self
      · obtain ⟨f, hf, rfl⟩ := List.mem_map.mp hnext
        obtain ⟨w, hw⟩ := hlinked.chain.answered f hf
        rw [← (Prod.mk.inj (Except.ok.inj hw)).2]
        split <;> simp
    have hle := (List.subperm_of_subset hnodup hsubset).length_le
    rw [List.length_map, hlength] at hle
    exact absurd hle (by decide)

/-! ## The services -/

/-- `domain.FundJourVoWire` -/
structure FundJourVoWire where
  /-- the amount, as a text -/
  businessBalance : Bytes := []
  type : Bytes := []
  typeDesc : Bytes := []
  fundJourParentType : Bytes := []
  time : Bytes := []
  /-- the cursor of the row -/
  queryParamStr : Bytes := []

/-- `FundJourFilter` -/
structure FundJourFilter where
  exchangeType : Bytes := []
  /-- read by `HistoryFundJourList` only, as is the next one -/
  startDate : Bytes := []
  endDate : Bytes := []

/-- `realFundJourListWireRequest` -/
structure RealFundJourListWireRequest where
  exchangeType : Bytes
  queryCount : ℤ
  queryParamStr : Bytes

/-- `historyFundJourListWireRequest` -/
structure HistoryFundJourListWireRequest where
  exchangeType : Bytes
  queryCount : ℤ
  queryParamStr : Bytes
  startDate : Bytes
  endDate : Bytes

/-- What ends a walk early: an error, or a panic of a constructor. -/
inductive Fault
  | err (err : GoError)
  | panic (panic : Panic)

section

variable [DecimalPackage] {σ : Type}

/-- `domain.FundJournalEntry` -/
structure FundJournalEntry where
  businessBalance : Money
  type : Bytes
  typeDesc : Bytes
  fundJourParentType : Bytes
  time : Bytes
  queryParamStr : Bytes

/-- `FundJournalEntryFromDTO` -/
def fundJournalEntryFromDTO (f : FundJourVoWire) : Except Panic FundJournalEntry := do
  let businessBalance ← mustNewMoney f.businessBalance (bytes "HKD") 3
  return ⟨businessBalance, f.type, f.typeDesc, f.fundJourParentType, f.time, f.queryParamStr⟩

/-- A request of a size and with a cursor, and what the Gateway replies. -/
abbrev Ask (σ : Type) : Type := ℤ → Bytes → σ → σ × Except GoError (List FundJourVoWire)

/-- The pages of a journal, from what the Gateway replies: the next cursor is that of the last row. -/
def journalPages (ask : Ask σ) : PageFetch σ FundJournalEntry Fault := fun size cursor w =>
  match ask size cursor w with
  | (w, .error err) => (w, .error (.err err))
  | (w, .ok data) =>
    match data.mapM fundJournalEntryFromDTO with
    | .error panic => (w, .error (.panic panic))
    | .ok entries => (w, .ok (entries, (data.getLast?.map (·.queryParamStr)).getD []))

/-- A look at the context, for a walk that may also panic. -/
def lookAt (ctxErr : Look σ GoError) : Look σ Fault := fun w => (ctxErr w).map id (·.map .err)

/-- What a service returns after a walk: a panic of the conversion leaves nothing of the rows. -/
def returned : List FundJournalEntry × Option Fault →
    Except Panic (List FundJournalEntry × Option GoError)
  | (rows, none) => .ok (rows, none)
  | (rows, some (.err err)) => .ok (rows, some err)
  | (_, some (.panic panic)) => .error panic

/-- `accountID must not be empty` -/
def noAccount (op : Bytes) : GoError :=
  TradingService.invalidParam op (bytes "accountID must not be empty")

/-- Both services: the account is checked, and then the walk is made. -/
def fundJourList (op : Bytes) (ctxErr : Look σ GoError) (ask : Ask σ) (accountID : Bytes)
    (pageSize : ℤ) (cursor : Bytes) (w : σ) : Except Panic (List FundJournalEntry × Option GoError) :=
  if accountID = [] then .ok ([], some (noAccount op))
  else
    let (s, err) := walkFundJourPages (lookAt ctxErr) pageSize cursor (journalPages ask) w
    returned (s.all, err)

/-- The requests of `RealFundJourList`. -/
def askReal (gateway : RealFundJourListWireRequest → σ → σ × Except GoError (List FundJourVoWire))
    (filter : FundJourFilter) : Ask σ := fun size cursor => gateway ⟨filter.exchangeType, size, cursor⟩

/-- The requests of `HistoryFundJourList`. -/
def askHistory
    (gateway : HistoryFundJourListWireRequest → σ → σ × Except GoError (List FundJourVoWire))
    (filter : FundJourFilter) : Ask σ := fun size cursor =>
  gateway ⟨filter.exchangeType, size, cursor, filter.startDate, filter.endDate⟩

/-- `RealFundJourList` -/
def realFundJourList (ctxErr : Look σ GoError)
    (gateway : RealFundJourListWireRequest → σ → σ × Except GoError (List FundJourVoWire))
    (accountID : Bytes) (filter : FundJourFilter) (pageSize : ℤ) (cursor : Bytes) (w : σ) :
    Except Panic (List FundJournalEntry × Option GoError) :=
  fundJourList (bytes "trade/TradeQueryRealFundJourList") ctxErr (askReal gateway filter) accountID
    pageSize cursor w

/-- `HistoryFundJourList` -/
def historyFundJourList (ctxErr : Look σ GoError)
    (gateway : HistoryFundJourListWireRequest → σ → σ × Except GoError (List FundJourVoWire))
    (accountID : Bytes) (filter : FundJourFilter) (pageSize : ℤ) (cursor : Bytes) (w : σ) :
    Except Panic (List FundJournalEntry × Option GoError) :=
  fundJourList (bytes "trade/TradeQueryHistoryFundJourList") ctxErr (askHistory gateway filter) accountID
    pageSize cursor w

/-- **A journal as a service returns it**: without an account it is refused, and otherwise it is made of
the replies to requests of the clamped size, from the caller's cursor on. -/
def Journaled (op : Bytes) (ctxErr : Look σ GoError) (ask : Ask σ) (accountID : Bytes)
    (pageSize : ℤ) (cursor : Bytes) (w : σ)
    (result : Except Panic (List FundJournalEntry × Option GoError)) : Prop :=
  if accountID = [] then result = .ok ([], some (noAccount op))
  else ∃ made, MadeOf (lookAt ctxErr) (journalPages ask (clampPageSize pageSize)) w cursor made ∧
    result = returned made

theorem fundJourList_journaled (op : Bytes) (ctxErr : Look σ GoError) (ask : Ask σ)
    (accountID : Bytes) (pageSize : ℤ) (cursor : Bytes) (w : σ) :
    Journaled op ctxErr ask accountID pageSize cursor w
      (fundJourList op ctxErr ask accountID pageSize cursor w) := by
  unfold Journaled fundJourList
  split
  · rfl
  · exact ⟨_, walkFundJourPages_madeOf (lookAt ctxErr) pageSize cursor (journalPages ask) w _ _ rfl, rfl⟩

end

end HstongApi.AccountService
