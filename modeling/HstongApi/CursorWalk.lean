import Mathlib.Data.Fintype.Pigeonhole
import Mathlib.Data.List.Nodup
import Mathlib.Data.Set.Finite.Basic
import Mathlib.Logic.Relation

/-!
# Walks over pages

A list is fetched page by page: every page comes with the cursor of the next one. A `Pager` says how a
page is fetched and when the walk ends. The world may change with every look at it, so nothing is
assumed about how two fetches hang together.

What the other side answers is a relation of its own, without a rule where to stop (`Chain`): from a
world and a cursor on, the pages that it hands out when each is asked for with the cursor that came
with the one before. A walk keeps the rows, and the fetches that were answered; these are such a chain
(`walk_linked`), and a walk that ends with an error ends where the chain cannot go on (`Fails`).

When a walk returns can so be said of the answers alone. With finitely many cursors it returns exactly
if the answers lead to no cursor infinitely often (`returns_iff_finite`). If they depend on the cursor
alone, a walk that ends without an error has not used a cursor twice (`Ended.nodup`): the number of
turns that are left depends on the cursor alone as well (`Ends.unique`).
-/

namespace HstongApi.CursorWalk

/-- A look at the context: `none`, or why it is done. -/
abbrev Look (σ ε : Type) : Type := σ → σ × Option ε

/-- What fetches pages: the rows at a cursor, with the cursor of the next page. -/
abbrev Fetch (σ γ ρ ε : Type) : Type := γ → σ → σ × Except ε (List ρ × γ)

/-- How pages are fetched, and after which page the walk ends: the rule is given the cursor that was
used, the rows, and the next cursor. -/
structure Pager (σ γ ρ ε : Type) where
  /-- a look at the context before each page -/
  ctxErr : Look σ ε
  /-- the page at a cursor -/
  fetch : Fetch σ γ ρ ε
  /-- the page is the last one to be fetched -/
  stop : γ → List ρ → γ → Bool

/-- A fetch that was answered. -/
structure Fetched (γ ρ : Type) where
  /-- the cursor it was made with -/
  cursor : γ
  /-- the rows of the page -/
  rows : List ρ
  /-- the cursor that came with them -/
  next : γ

/-- A walk that is under way. -/
structure Walk (σ γ ρ : Type) where
  /-- what the last look at the world has left -/
  world : σ
  /-- the cursor of the next page -/
  cursor : γ
  /-- the rows so far -/
  all : List ρ := []
  /-- the fetches so far -/
  fetched : List (Fetched γ ρ) := []

/-- How far a walk came. -/
inductive Turn (σ γ ρ ε : Type)
  | returned (s : Walk σ γ ρ) (err : Option ε)
  | going (s : Walk σ γ ρ)

variable {σ γ ρ ε : Type}

/-! ## What is answered -/

/-- **Fetches in a chain**, from a world and a cursor on: the context is not done, and the page is
fetched with the cursor that came with the page before, in the world that was left then. The chain
ends in a world and with a cursor. -/
inductive Chain (ctxErr : Look σ ε) (fetch : Fetch σ γ ρ ε) (w : σ) (c : γ) :
    List (Fetched γ ρ) → σ → γ → Prop
  | nil : Chain ctxErr fetch w c [] w c
  | snoc {fetched : List (Fetched γ ρ)} {w' w'' : σ} {c' next : γ} {rows : List ρ}
    (h : Chain ctxErr fetch w c fetched w' c') (hctx : (ctxErr w').2 = none)
    (hfetch : fetch c' (ctxErr w').1 = (w'', .ok (rows, next))) :
    Chain ctxErr fetch w c (fetched ++ [⟨c', rows, next⟩]) w'' next

/-- No page can be fetched with the cursor in this world: the context is done, or the fetch fails. -/
inductive Fails (ctxErr : Look σ ε) (fetch : Fetch σ γ ρ ε) (w : σ) (c : γ) :
    ε → Prop
  | done {err : ε} (hctx : (ctxErr w).2 = some err) : Fails ctxErr fetch w c err
  | failed {err : ε} (hctx : (ctxErr w).2 = none) (hfetch : (fetch c (ctxErr w).1).2 = .error err) :
    Fails ctxErr fetch w c err

/-- The answers lead to a cursor in `n` pages, all of which let a walk go on. -/
def LeadsTo (ctxErr : Look σ ε) (fetch : Fetch σ γ ρ ε)
    (goes : Fetched γ ρ → Prop) (w : σ) (start : γ) (n : ℕ) (c : γ) : Prop :=
  ∃ fetched w', Chain ctxErr fetch w start fetched w' c ∧ fetched.length = n ∧ ∀ f ∈ fetched, goes f

/-- One cursor leads to another, for answers that depend on the cursor alone: the page at the first one
lets a walk go on, and comes with the second one. -/
def Leads (fetch : Fetch σ γ ρ ε) (goes : Fetched γ ρ → Prop) (w : σ) (c d : γ) :
    Prop :=
  ∃ rows, (fetch c w).2 = .ok (rows, d) ∧ goes ⟨c, rows, d⟩

section

variable {ctxErr : Look σ ε} {fetch : Fetch σ γ ρ ε} {w w' : σ} {c c' : γ}
  {fetched : List (Fetched γ ρ)}

/-- The fetches after the first are made with the cursors that came with the pages. -/
theorem Chain.links (h : Chain ctxErr fetch w c fetched w' c') :
    fetched.map Fetched.cursor ++ [c'] = c :: fetched.map Fetched.next := by
  induction h with
  | nil => rfl
  | snoc _ _ _ ih => simp only [List.map_append, List.map_cons, List.map_nil, ih, List.cons_append]

/-- Every fetch was answered in this way. -/
theorem Chain.answered (h : Chain ctxErr fetch w c fetched w' c') (f : Fetched γ ρ) (hf : f ∈ fetched) :
    ∃ w, (fetch f.cursor w).2 = .ok (f.rows, f.next) := by
  induction h with
  | nil => cases hf
  | snoc _ _ hfetch ih =>
    rcases List.mem_append.mp hf with hf | hf
    · exact ih hf
    · rw [List.mem_singleton.mp hf]
      exact ⟨_, by rw [hfetch]⟩

end

/-! ## The loop -/

/-- A page is added to the rows. -/
def Walk.add (s : Walk σ γ ρ) (w : σ) (rows : List ρ) (next : γ) : Walk σ γ ρ :=
  ⟨w, s.cursor, s.all ++ rows, s.fetched ++ [⟨s.cursor, rows, next⟩]⟩

namespace Pager

/-- A turn of the loop. -/
def turn (p : Pager σ γ ρ ε) (s : Walk σ γ ρ) : Turn σ γ ρ ε :=
  match p.ctxErr s.world with
  | (w, some err) => .returned { s with world := w } (some err)
  | (w, none) =>
    match p.fetch s.cursor w with
    | (w, .error err) => .returned { s with world := w } (some err)
    | (w, .ok (rows, next)) =>
      if p.stop s.cursor rows next then .returned (s.add w rows next) none
      else .going { s.add w rows next with cursor := next }

/-- Some turns of the loop. -/
def walk (p : Pager σ γ ρ ε) : ℕ → Walk σ γ ρ → Turn σ γ ρ ε
  | 0, s => .going s
  | n + 1, s =>
    match p.turn s with
    | .returned s err => .returned s err
    | .going s => p.walk n s

/-- **The walk returns.** -/
def Returns (p : Pager σ γ ρ ε) (s : Walk σ γ ρ) : Prop := ∃ n s' err, p.walk n s = .returned s' err

/-- The context is never done. -/
def Live (p : Pager σ γ ρ ε) : Prop := ∀ w, (p.ctxErr w).2 = none

/-- The answers depend on the cursor alone. -/
def Stateless (p : Pager σ γ ρ ε) : Prop := ∀ c w w', (p.fetch c w).2 = (p.fetch c w').2

/-! ## Turns -/

/-- What a turn can do. -/
inductive Turns (p : Pager σ γ ρ ε) (s : Walk σ γ ρ) : Turn σ γ ρ ε → Prop
  | failed {w : σ} {err : ε} (hfails : Fails p.ctxErr p.fetch s.world s.cursor err) :
    Turns p s (.returned { s with world := w } (some err))
  | stopped {w : σ} {rows : List ρ} {next : γ} (hctx : (p.ctxErr s.world).2 = none)
    (hfetch : p.fetch s.cursor (p.ctxErr s.world).1 = (w, .ok (rows, next)))
    (hstop : p.stop s.cursor rows next = true) : Turns p s (.returned (s.add w rows next) none)
  | going {w : σ} {rows : List ρ} {next : γ} (hctx : (p.ctxErr s.world).2 = none)
    (hfetch : p.fetch s.cursor (p.ctxErr s.world).1 = (w, .ok (rows, next)))
    (hstop : p.stop s.cursor rows next = false) :
    Turns p s (.going { s.add w rows next with cursor := next })

theorem turns_turn (p : Pager σ γ ρ ε) (s : Walk σ γ ρ) : Turns p s (p.turn s) := by
  unfold turn
  split
  · rename_i hctx
    exact .failed (.done (by rw [hctx]))
  · rename_i w hctx
    obtain ⟨rfl, hlive⟩ : (p.ctxErr s.world).1 = w ∧ (p.ctxErr s.world).2 = none := by
      rw [hctx]
      exact ⟨rfl, rfl⟩
    split
    · rename_i hfetch
      exact .failed (.failed hlive (by rw [hfetch]))
    · rename_i hfetch
      split
      · exact .stopped hlive hfetch ‹_›
      · exact .going hlive hfetch (Bool.eq_false_iff.mpr ‹_›)

theorem turn_of_goes {p : Pager σ γ ρ ε} {s : Walk σ γ ρ} {w : σ} {rows : List ρ} {next : γ}
    (hctx : (p.ctxErr s.world).2 = none)
    (hfetch : p.fetch s.cursor (p.ctxErr s.world).1 = (w, .ok (rows, next)))
    (hgoes : p.stop s.cursor rows next = false) :
    p.turn s = .going { s.add w rows next with cursor := next } := by
  have hlook : p.ctxErr s.world = ((p.ctxErr s.world).1, none) := Prod.ext rfl hctx
  rw [turn, hlook]
  simp only [hfetch, hgoes, Bool.false_eq_true, if_false]

variable {p : Pager σ γ ρ ε} {s s' : Walk σ γ ρ} {world : σ} {start : γ}

theorem walk_succ_of_going {n : ℕ} (h : p.walk n s = .going s') : p.walk (n + 1) s = p.turn s' := by
  induction n generalizing s with
  | zero =>
    obtain rfl : s = s' := Turn.going.inj h
    unfold walk
    split <;> simp_all [walk]
  | succ n ih =>
    rw [walk] at h ⊢
    split at h
    · cases h
    · exact ih h

/-- A walk that has returned stays so. -/
theorem walk_of_returned {n m : ℕ} {err : Option ε} (h : p.walk n s = .returned s' err)
    (hle : n ≤ m) : p.walk m s = .returned s' err := by
  induction n generalizing s m with
  | zero => cases h
  | succ n ih =>
    obtain ⟨m, rfl⟩ := Nat.exists_eq_add_of_lt hle
    rw [walk] at h ⊢
    split at h
    · exact h
    · exact ih h (by omega)

theorem going_or_returned (p : Pager σ γ ρ ε) (n : ℕ) (s : Walk σ γ ρ) :
    (∃ s', p.walk n s = .going s') ∨ ∃ s' err, p.walk n s = .returned s' err := by
  cases h : p.walk n s with
  | returned s' err => exact .inr ⟨s', err, rfl⟩
  | going s' => exact .inl ⟨s', rfl⟩

/-- A walk that goes on after every turn. -/
theorem going_walk (h : ∀ s, ∃ s', p.turn s = .going s') (n : ℕ) (s : Walk σ γ ρ) :
    ∃ s', p.walk n s = .going s' := by
  induction n with
  | zero => exact ⟨s, rfl⟩
  | succ n ih =>
    obtain ⟨s', hs'⟩ := ih
    rw [walk_succ_of_going hs']
    exact h s'

/-! ## The fetches of a walk -/

/-- **The fetches so far are a chain**, the rows are those of the fetches in order, and after none of
them the walk had to end. -/
structure Linked (p : Pager σ γ ρ ε) (world : σ) (start : γ) (s : Walk σ γ ρ) : Prop where
  all : s.all = s.fetched.flatMap Fetched.rows
  chain : Chain p.ctxErr p.fetch world start s.fetched s.world s.cursor
  goes : ∀ f ∈ s.fetched, p.stop f.cursor f.rows f.next = false

/-- **How a walk ends** within `n` turns: where the chain cannot go on, with that error, or after a page
with which it had to end. -/
inductive Ended (p : Pager σ γ ρ ε) (world : σ) (start : γ) (n : ℕ) : Walk σ γ ρ → Option ε → Prop
  | error {s : Walk σ γ ρ} {w : σ} {err : ε} (h : p.Linked world start s) (hlength : s.fetched.length < n)
    (hfails : Fails p.ctxErr p.fetch s.world s.cursor err) :
    Ended p world start n { s with world := w } (some err)
  | stop {s : Walk σ γ ρ} {w : σ} {rows : List ρ} {next : γ} (h : p.Linked world start s)
    (hlength : s.fetched.length < n)
    (hchain : Chain p.ctxErr p.fetch world start (s.fetched ++ [⟨s.cursor, rows, next⟩]) w next)
    (hstop : p.stop s.cursor rows next = true) : Ended p world start n (s.add w rows next) none

theorem linked_start (p : Pager σ γ ρ ε) (w : σ) (c : γ) : p.Linked w c { world := w, cursor := c } :=
  ⟨rfl, .nil, nofun⟩

/-- A page with which the walk does not end. -/
theorem Linked.going (h : p.Linked world start s) {w : σ} {rows : List ρ} {next : γ}
    (hctx : (p.ctxErr s.world).2 = none)
    (hfetch : p.fetch s.cursor (p.ctxErr s.world).1 = (w, .ok (rows, next)))
    (hgoes : p.stop s.cursor rows next = false) :
    p.Linked world start { s.add w rows next with cursor := next } where
  all := by simp [Walk.add, h.all]
  chain := h.chain.snoc hctx hfetch
  goes := fun f hf => (List.mem_append.mp hf).elim (h.goes f) fun hlast =>
    List.mem_singleton.mp hlast ▸ hgoes

theorem Ended.mono {n m : ℕ} {err : Option ε} (h : p.Ended world start n s err) (hle : n ≤ m) :
    p.Ended world start m s err := by
  cases h with
  | error h hlength hfails => exact .error h (hlength.trans_le hle) hfails
  | stop h hlength hchain hstop => exact .stop h (hlength.trans_le hle) hchain hstop

/-- What is true of a walk that goes on with one more fetch for each turn, and of one that ends. -/
def Result (p : Pager σ γ ρ ε) (world : σ) (start : γ) (n : ℕ) : Turn σ γ ρ ε → Prop
  | .going s => p.Linked world start s ∧ s.fetched.length = n
  | .returned s err => p.Ended world start n s err

/-- The step of a walk. -/
theorem Linked.turn (h : p.Linked world start s) :
    p.Result world start (s.fetched.length + 1) (p.turn s) := by
  have hturns := p.turns_turn s
  generalize p.turn s = t at hturns ⊢
  cases hturns with
  | failed hfails => exact .error h (Nat.lt_succ_self _) hfails
  | stopped hctx hfetch hstop =>
    exact .stop h (Nat.lt_succ_self _) (h.chain.snoc hctx hfetch) hstop
  | going hctx hfetch hstop => exact ⟨h.going hctx hfetch hstop, by simp [Walk.add]⟩

/-- **The fetches of a walk are linked, however it ends.** -/
theorem walk_linked (p : Pager σ γ ρ ε) (n : ℕ) (w : σ) (start : γ) :
    p.Result w start n (p.walk n { world := w, cursor := start }) := by
  induction n with
  | zero => exact ⟨p.linked_start w start, rfl⟩
  | succ n ih =>
    cases hwalk : p.walk n { world := w, cursor := start } with
    | returned s err =>
      rw [hwalk] at ih
      rw [walk_of_returned hwalk n.le_succ]
      exact Ended.mono ih n.le_succ
    | going s =>
      rw [hwalk] at ih
      rw [walk_succ_of_going hwalk, ← ih.2]
      exact ih.1.turn

/-- A walk follows a chain, as long as it does not have to end. -/
theorem walk_of_chain {fetched : List (Fetched γ ρ)} {w : σ} {c : γ}
    (h : Chain p.ctxErr p.fetch world start fetched w c)
    (hgoes : ∀ f ∈ fetched, p.stop f.cursor f.rows f.next = false) :
    ∃ s, p.walk fetched.length { world, cursor := start } = .going s ∧ s.world = w ∧ s.cursor = c := by
  induction h with
  | nil => exact ⟨_, rfl, rfl, rfl⟩
  | snoc _ hctx hfetch ih =>
    obtain ⟨s, hs, rfl, rfl⟩ := ih fun f hf => hgoes f (List.mem_append_left _ hf)
    have hlast := hgoes _ (List.mem_append_right _ List.mem_cons_self)
    rw [List.length_append, List.length_singleton, walk_succ_of_going hs,
      turn_of_goes hctx hfetch hlast]
    exact ⟨_, rfl, rfl, rfl⟩

/-! ## Cursors that lead to each other -/

/-- From this cursor there are `n` more pages after the next one. -/
def Ends (leads : γ → γ → Prop) : ℕ → γ → Prop
  | 0, c => ∀ d, ¬ leads c d
  | n + 1, c => ∃ d, leads c d ∧ Ends leads n d

section

variable {leads : γ → γ → Prop}

/-- If at most one cursor follows another, the number of pages that are left depends on the cursor
alone. -/
theorem Ends.unique (hunique : Relator.RightUnique leads) {m n : ℕ} {c : γ} (hm : Ends leads m c)
    (hn : Ends leads n c) : m = n := by
  induction m generalizing n c with
  | zero =>
    cases n with
    | zero => rfl
    | succ n =>
      obtain ⟨d, hd, -⟩ := hn
      exact absurd hd (hm d)
  | succ m ih =>
    obtain ⟨d, hd, hm⟩ := hm
    cases n with
    | zero => exact absurd hd (hn d)
    | succ n =>
      obtain ⟨d', hd', hn⟩ := hn
      rw [ih hm (hunique hd hd' ▸ hn)]

/-- **Linked fetches to a cursor from which the walk ends have different cursors.** -/
theorem nodup_of_ends (hunique : Relator.RightUnique leads) {fetched : List (Fetched γ ρ)} {c : γ} {n : ℕ}
    (hlinks : fetched.map Fetched.cursor ++ [c] = start :: fetched.map Fetched.next)
    (hleads : ∀ f ∈ fetched, leads f.cursor f.next) (hends : Ends leads n c) :
    Ends leads (fetched.length + n) start ∧ (fetched.map Fetched.cursor ++ [c]).Nodup ∧
      ∀ d ∈ fetched.map Fetched.cursor ++ [c], ∃ m ≤ fetched.length + n, Ends leads m d := by
  induction fetched generalizing start with
  | nil =>
    obtain rfl : c = start := (List.cons.inj hlinks).1
    refine ⟨by rwa [List.length_nil, Nat.zero_add], List.nodup_singleton c, fun d hd => ?_⟩
    exact ⟨n, by omega, List.mem_singleton.mp hd ▸ hends⟩
  | cons f fetched ih =>
    obtain ⟨hfirst, hrest⟩ := List.cons.inj hlinks
    obtain ⟨hnext, hnodup, hall⟩ := ih hrest fun g hg => hleads g (List.mem_cons_of_mem f hg)
    have hcursor : Ends leads (fetched.length + n + 1) f.cursor :=
      ⟨f.next, hleads f List.mem_cons_self, hnext⟩
    rw [List.length_cons, Nat.add_right_comm]
    refine ⟨hfirst ▸ hcursor, List.nodup_cons.mpr ⟨fun hmem => ?_, hnodup⟩, fun d hd => ?_⟩
    · -- from the first cursor there are more pages than from any later one
      obtain ⟨m, hm, hends⟩ := hall _ hmem
      have := hends.unique hunique hcursor
      omega
    · rcases List.mem_cons.mp hd with rfl | hd
      · exact ⟨_, le_rfl, hcursor⟩
      · obtain ⟨m, hm, hends⟩ := hall d hd
        exact ⟨m, by omega, hends⟩

end

variable {goes : Fetched γ ρ → Prop} {n : ℕ} {c : γ}

theorem rightUnique_leads {fetch : Fetch σ γ ρ ε} {w : σ} :
    Relator.RightUnique (Leads fetch goes w) := by
  rintro c d d' ⟨rows, hfetch, -⟩ ⟨rows', hfetch', -⟩
  cases hfetch.symm.trans hfetch'
  rfl

/-- **A walk that ends without an error has not used a cursor twice**, if the answers depend on the
cursor alone. -/
theorem Ended.nodup (hstateless : p.Stateless) (h : p.Ended world start n s none) :
    (s.fetched.map Fetched.cursor).Nodup := by
  cases h with
  | @stop s w rows next h _ hchain hstop =>
    have hleads : ∀ f ∈ s.fetched,
        Leads p.fetch (fun f => p.stop f.cursor f.rows f.next = false) w f.cursor f.next := fun f hf => by
      obtain ⟨w', hw'⟩ := h.chain.answered f hf
      exact ⟨f.rows, (hstateless _ _ _).trans hw', h.goes f hf⟩
    obtain ⟨w', hw'⟩ := hchain.answered _ (List.mem_append_right _ List.mem_cons_self)
    have hends : Ends (Leads p.fetch (fun f => p.stop f.cursor f.rows f.next = false) w) 0 s.cursor := by
      rintro d ⟨rows', hfetch, hgoes⟩
      cases hfetch.symm.trans ((hstateless _ _ _).trans hw')
      cases hgoes.symm.trans hstop
    rw [Walk.add, List.map_append]
    exact (nodup_of_ends rightUnique_leads h.chain.links hleads hends).2.1

/-! ## When a walk returns -/

/-- A walk that never returns goes on for ever. -/
theorem exists_going_of_not_returns (h : ¬ p.Returns s) :
    ∃ state : ℕ → Walk σ γ ρ, ∀ n, p.walk n s = .going (state n) :=
  Classical.skolem.mp fun n => (p.going_or_returned n s).resolve_right fun ⟨s', err, hreturned⟩ =>
    h ⟨n, s', err, hreturned⟩

variable {cursors : Set γ}

/-- All the cursors but the first come with a page. -/
theorem cursor_mem (hcursors : ∀ c w rows next, (p.fetch c w).2 = .ok (rows, next) → next ∈ cursors)
    {state : ℕ → Walk σ γ ρ} (h : ∀ n, p.walk n s = .going (state n)) (n : ℕ) :
    (state (n + 1)).cursor ∈ cursors := by
  have hturn := (walk_succ_of_going (h n)).symm.trans (h (n + 1))
  have hturns := p.turns_turn (state n)
  rw [hturn] at hturns
  generalize state (n + 1) = s' at hturns ⊢
  cases hturns with
  | going hctx hfetch hstop => exact hcursors _ _ _ _ (congrArg Prod.snd hfetch)

/-- The turn after `n` others is made with a cursor exactly if the answers lead to it in `n` pages. -/
theorem leadsTo_iff_going (hgoes : ∀ f, p.stop f.cursor f.rows f.next = false ↔ goes f) :
    LeadsTo p.ctxErr p.fetch goes world start n c ↔
      ∃ s, p.walk n { world, cursor := start } = .going s ∧ s.cursor = c := by
  constructor
  · rintro ⟨fetched, w, hchain, rfl, hall⟩
    obtain ⟨s, hs, -, hcursor⟩ := walk_of_chain hchain fun f hf => (hgoes f).mpr (hall f hf)
    exact ⟨s, hs, hcursor⟩
  · rintro ⟨s, hs, rfl⟩
    have hresult := p.walk_linked n world start
    rw [hs] at hresult
    exact ⟨s.fetched, s.world, hresult.1.chain, hresult.2, fun f hf => (hgoes f).mp (hresult.1.goes f hf)⟩

/-- **With finitely many cursors, a walk returns exactly if the answers lead to no cursor infinitely
often.** -/
theorem returns_iff_finite (hgoes : ∀ f, p.stop f.cursor f.rows f.next = false ↔ goes f)
    (hfinite : cursors.Finite)
    (hcursors : ∀ c w rows next, (p.fetch c w).2 = .ok (rows, next) → next ∈ cursors) :
    p.Returns { world, cursor := start } ↔
      ∀ c, {n | LeadsTo p.ctxErr p.fetch goes world start n c}.Finite := by
  simp only [leadsTo_iff_going hgoes]
  constructor
  · rintro ⟨n, s', err, h⟩ c
    refine (Set.finite_lt_nat n).subset fun m hm => ?_
    obtain ⟨s'', hgoing, -⟩ := hm
    by_contra hle
    cases (walk_of_returned h (not_lt.mp hle)).symm.trans hgoing
  · intro h
    by_contra hnever
    obtain ⟨state, hstate⟩ := exists_going_of_not_returns hnever
    have := hfinite.to_subtype
    obtain ⟨c, hc⟩ := Finite.exists_infinite_fiber fun n : ℕ =>
      (⟨_, cursor_mem hcursors hstate n⟩ : cursors)
    refine Set.infinite_coe_iff.mp hc ?_
    refine ((h c.1).preimage Nat.succ_injective.injOn).subset fun n hn => ?_
    exact ⟨state (n + 1), hstate (n + 1), congrArg Subtype.val hn⟩

/-! ## Lists that are served -/

/-- Where the pages begin, if the page at the place `i` has `len i` rows. -/
def position (len : ℕ → ℕ) : ℕ → ℕ
  | 0 => 0
  | n + 1 => position len n + len (position len n)

/-- **A list is served**: the cursor of each place is answered with the next rows. If the walk ends
there, no rows are left, and otherwise it goes on with the cursor of the place behind these rows. -/
structure Serves (p : Pager σ γ ρ ε) (list : List ρ) (name : ℕ → γ) (len : ℕ → ℕ) : Prop where
  live : p.Live
  page : ∀ i ≤ list.length, ∃ next,
    (∀ w, (p.fetch (name i) w).2 = .ok ((list.drop i).take (len i), next)) ∧
      if p.stop (name i) ((list.drop i).take (len i)) next then list.length ≤ i + len i
      else i + len i ≤ list.length ∧ next = name (i + len i)

/-- The walk ends with the page at this place. -/
def StopsAt (p : Pager σ γ ρ ε) (list : List ρ) (name : ℕ → γ) (len : ℕ → ℕ) (i : ℕ) : Prop :=
  ∃ next, (∀ w, (p.fetch (name i) w).2 = .ok ((list.drop i).take (len i), next)) ∧
    p.stop (name i) ((list.drop i).take (len i)) next = true

/-- How far a walk over a list came: it goes on behind the rows that it has, or it has all of them.
Every page was fetched once. -/
def Serving (p : Pager σ γ ρ ε) (list : List ρ) (name : ℕ → γ) (len : ℕ → ℕ) (n : ℕ) :
    Turn σ γ ρ ε → Prop
  | .going s =>
    position len n ≤ list.length ∧ s.cursor = name (position len n) ∧
      s.all = list.take (position len n) ∧
      s.fetched.map Fetched.cursor = (List.range n).map fun k => name (position len k)
  | .returned s err =>
    err = none ∧ s.all = list ∧ ∃ k < n, position len k ≤ list.length ∧
      p.StopsAt list name len (position len k) ∧
      s.fetched.map Fetched.cursor = (List.range (k + 1)).map fun k => name (position len k)

theorem Serves.turn {list : List ρ} {name : ℕ → γ} {len : ℕ → ℕ} (h : p.Serves list name len)
    {n : ℕ} (hs : p.Serving list name len n (.going s)) :
    p.Serving list name len (n + 1) (p.turn s) := by
  obtain ⟨hle, hcursor, hall, hfetched⟩ := hs
  obtain ⟨next, hanswer, hrule⟩ := h.page _ hle
  have hrows : s.all ++ (list.drop (position len n)).take (len (position len n)) =
      list.take (position len (n + 1)) := by
    rw [hall, position, List.take_add]
  have hcursors : ∀ rows, (s.fetched ++ [(⟨s.cursor, rows, next⟩ : Fetched γ ρ)]).map Fetched.cursor =
      (List.range (n + 1)).map fun k => name (position len k) := fun rows => by
    rw [List.map_append, hfetched, List.range_succ, List.map_append, List.map_singleton,
      List.map_singleton, hcursor]
  have hturns := p.turns_turn s
  generalize p.turn s = t at hturns ⊢
  cases hturns with
  | failed hfails =>
    cases hfails with
    | done hctx => cases (h.live s.world).symm.trans hctx
    | failed _ hfetch =>
      rw [hcursor] at hfetch
      cases (hanswer _).symm.trans hfetch
  | stopped _ hfetch hstop =>
    rw [hcursor] at hfetch hstop
    cases (hanswer _).symm.trans (congrArg Prod.snd hfetch)
    rw [if_pos hstop] at hrule
    exact ⟨rfl, hrows.trans (List.take_of_length_le hrule), n, n.lt_succ_self, hle,
      ⟨_, hanswer, hstop⟩, hcursors _⟩
  | going _ hfetch hstop =>
    rw [hcursor] at hfetch hstop
    cases (hanswer _).symm.trans (congrArg Prod.snd hfetch)
    rw [hstop, if_neg Bool.false_ne_true] at hrule
    exact ⟨hrule.1, hrule.2, hrows, hcursors _⟩

/-- **A walk over a list that is served.** -/
theorem Serves.walk {list : List ρ} {name : ℕ → γ} {len : ℕ → ℕ} (h : p.Serves list name len)
    (n : ℕ) (w : σ) : p.Serving list name len n (p.walk n { world := w, cursor := name 0 }) := by
  induction n with
  | zero => exact ⟨Nat.zero_le _, rfl, rfl, rfl⟩
  | succ n ih =>
    cases hwalk : p.walk n { world := w, cursor := name 0 } with
    | returned s err =>
      rw [hwalk] at ih
      rw [walk_of_returned hwalk n.le_succ]
      obtain ⟨herr, hall, k, hk, hplace⟩ := ih
      exact ⟨herr, hall, k, hk.trans n.lt_succ_self, hplace⟩
    | going s =>
      rw [hwalk] at ih
      rw [walk_succ_of_going hwalk]
      exact h.turn ih

end Pager

end HstongApi.CursorWalk
