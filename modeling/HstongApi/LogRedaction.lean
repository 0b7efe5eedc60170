import HstongApi.RedactText

/-!
# Redaction of structured log attributes

The handler of `internal/logging/logging.go` that masks sensitive attributes
before they reach the handler it wraps (`Redacting`, `RedactAttrs`, `redactAttr`).

An attribute is a key and a value; a value is a text, some other scalar, a group
of attributes, or a *valuer*: a `slog.LogValuer`, whose value is computed by the
wrapped handler when it writes the record. `redactAttr` looks at the keys of the
groups that are there when it runs, so what a valuer hides is forwarded as it is.

The property is one of two runs. `Entry.Varies` relates two inputs that differ
only in non-empty values under sensitive keys, `Entry.resolve` is what the wrapped
handler makes of what it was given, and `noninterfering_iff` says for which inputs
no such variation can be seen: those with no sensitive attribute in a valuer.
-/

namespace HstongApi

/-! ## Attributes -/

/-- The text of a scalar, as `slog.Value.String` prints it. -/
class Loggable (α : Type) where
  /-- `Value.String` on a scalar -/
  text : α → Bytes

/-- `slog.Value`: a string, a scalar of another kind, a group, or a `LogValuer` with
the text its Go value is printed as and the value it resolves to. -/
inductive LogValue (α : Type) where
  | string (s : Bytes)
  | other (x : α)
  | group (attrs : List (Bytes × LogValue α))
  | valuer (text : Bytes) (resolved : LogValue α)

/-- `slog.Attr` -/
abbrev Attr (α : Type) : Type := Bytes × LogValue α

namespace LogValue

variable {α : Type}

mutual
/-- `Value.String`. A valuer is printed, not resolved. -/
def text [Loggable α] : LogValue α → Bytes
  | .string s => s
  | .other x => Loggable.text x
  | .group attrs => 91 :: join (attrTexts attrs) [32] ++ [93]
  | .valuer text _ => text

/-- `Attr.String` of each attribute -/
def attrTexts [Loggable α] : List (Bytes × LogValue α) → List Bytes
  | [] => []
  | (key, v) :: attrs => (key ++ 61 :: v.text) :: attrTexts attrs
end

/-- `Value.isEmptyGroup` -/
def isEmptyGroup : LogValue α → Bool
  | .group [] => true
  | _ => false

/-- `slog.GroupValue`, which leaves empty groups out. -/
def groupValue (attrs : List (Attr α)) : LogValue α :=
  .group (attrs.filter fun a => !a.2.isEmptyGroup)

/-- An attribute as a handler writes it: nothing for a group without members. -/
def shown (key : Bytes) (v : LogValue α) : List (Attr α) :=
  if v.isEmptyGroup then [] else [(key, v)]

mutual
/-- A value as the wrapped handler writes it, with every valuer resolved. -/
def resolve : LogValue α → LogValue α
  | .string s => .string s
  | .other x => .other x
  | .group attrs => .group (resolveAttrs attrs)
  | .valuer _ v => v.resolve

/-- The attributes of a group as the wrapped handler writes them -/
def resolveAttrs : List (Bytes × LogValue α) → List (Bytes × LogValue α)
  | [] => []
  | (key, v) :: attrs => shown key v.resolve ++ resolveAttrs attrs
end

theorem isEmptyGroup_iff {v : LogValue α} : v.isEmptyGroup = true ↔ v = .group [] := by
  constructor
  · intro h
    match v, h with
    | .group [], _ => rfl
  · rintro rfl
    rfl

theorem shown_inj {key : Bytes} {v w : LogValue α} (h : shown key v = shown key w) :
    v = w := by
  rw [shown, shown] at h
  split_ifs at h with hv hw hw
  · rw [isEmptyGroup_iff.mp hv, isEmptyGroup_iff.mp hw]
  · simpa using h

/-- The empty groups that `slog` leaves out are not shown anyway. -/
theorem resolveAttrs_filter (attrs : List (Attr α)) :
    resolveAttrs (attrs.filter fun a => !a.2.isEmptyGroup) = resolveAttrs attrs := by
  induction attrs with
  | nil => rfl
  | cons a attrs ih =>
    obtain ⟨key, v⟩ := a
    by_cases hv : v.isEmptyGroup = true
    · have hshown : shown key v.resolve = [] := by
        rw [isEmptyGroup_iff.mp hv]
        rfl
      rw [List.filter_cons_of_neg (by simp [hv]), ih, resolveAttrs, hshown, List.nil_append]
    · rw [List.filter_cons_of_pos (by simp [hv]), resolveAttrs, ih, resolveAttrs]

theorem resolve_groupValue (attrs : List (Attr α)) :
    (groupValue attrs).resolve = .group (resolveAttrs attrs) := by
  rw [groupValue, resolve, resolveAttrs_filter]

end LogValue

open LogValue

section Handler

variable [UnicodeTables] {α : Type} [Loggable α]

mutual
/-- `redactAttr` -/
def redactAttr : Bytes × LogValue α → Bytes × LogValue α
  | (key, .group attrs) =>
    if isSensitiveKey key then (key, .string (redactValue (group attrs).text))
    else (key, groupValue (redactAttrs attrs))
  | (key, v) => if isSensitiveKey key then (key, .string (redactValue v.text)) else (key, v)

/-- `RedactAttrs` -/
def redactAttrs : List (Bytes × LogValue α) → List (Bytes × LogValue α)
  | [] => []
  | a :: attrs => redactAttr a :: redactAttrs attrs
end

theorem redactAttr_sensitive {key : Bytes} (h : isSensitiveKey key = true) (v : LogValue α) :
    redactAttr (key, v) = (key, .string (redactValue v.text)) := by
  cases v with
  | string | other | valuer => rw [redactAttr, if_pos h]; nofun
  | group attrs => rw [redactAttr, if_pos h]

theorem redactAttr_group {key : Bytes} (h : isSensitiveKey key = false) (attrs : List (Attr α)) :
    redactAttr (key, .group attrs) = (key, groupValue (redactAttrs attrs)) := by
  rw [redactAttr, if_neg (ne_true_of_eq_false h)]

theorem redactAttr_valuer {key : Bytes} (h : isSensitiveKey key = false) (text : Bytes)
    (v : LogValue α) : redactAttr (key, .valuer text v) = (key, .valuer text v) := by
  rw [redactAttr, if_neg (ne_true_of_eq_false h)]
  nofun

theorem redactAttr_fst (a : Attr α) : (redactAttr a).1 = a.1 := by
  obtain ⟨key, v⟩ := a
  cases hkey : isSensitiveKey key with
  | true => rw [redactAttr_sensitive hkey]
  | false =>
    cases v with
    | group attrs => rw [redactAttr_group hkey]
    | string | other => simp [redactAttr, hkey]
    | valuer text v => rw [redactAttr_valuer hkey]

/-! ## The handler -/

/-- What a record carries besides its attributes; `Handle` copies it. -/
structure Header where
  /-- `Record.Time` -/
  time : ℤ
  /-- `Record.Level` -/
  level : ℤ
  /-- `Record.Message` -/
  message : Bytes
  /-- `Record.PC` -/
  pc : ℕ

/-- A call that derives one handler from another -/
inductive Derivation (α : Type) where
  | withAttrs (attrs : List (Attr α))
  | withGroup (name : Bytes)

/-- One record, with the calls that derived the handler it is given to from the
first one. -/
structure Entry (α : Type) where
  derivations : List (Derivation α)
  header : Header
  attrs : List (Attr α)

/-- `redactingHandler.WithAttrs` and `redactingHandler.WithGroup`: the call the
wrapped handler gets. -/
def Derivation.redact : Derivation α → Derivation α
  | .withAttrs attrs => .withAttrs (redactAttrs attrs)
  | .withGroup name => .withGroup name

/-- `redactingHandler.Handle`, behind the derivations: what the wrapped handler is
given. `Record.AddAttrs` leaves empty groups out. -/
def Entry.redact (e : Entry α) : Entry α where
  derivations := e.derivations.map Derivation.redact
  header := e.header
  attrs := (redactAttrs e.attrs).filter fun a => !a.2.isEmptyGroup

/-- A derivation as the wrapped handler writes it -/
def Derivation.resolve : Derivation α → Derivation α
  | .withAttrs attrs => .withAttrs (resolveAttrs attrs)
  | .withGroup name => .withGroup name

/-- The output of the wrapped handler, fully resolved -/
def Entry.resolve (e : Entry α) : Entry α where
  derivations := e.derivations.map Derivation.resolve
  header := e.header
  attrs := resolveAttrs e.attrs

/-! ## Variation of secrets -/

mutual
/-- `v` and `w` differ only in non-empty values under sensitive keys. What a valuer
is printed as may differ with what it resolves to. -/
def LogValue.Varies : LogValue α → LogValue α → Prop
  | .string s, w => w = .string s
  | .other x, w => w = .other x
  | .group attrs, w => ∃ attrs', w = .group attrs' ∧ AttrsVary attrs attrs'
  | .valuer _ v, w => ∃ text' v', w = .valuer text' v' ∧ v.Varies v'

/-- `LogValue.Varies` on the attributes of a group: the keys are the same, and under a
sensitive key a non-empty value may be any other. -/
def AttrsVary : List (Bytes × LogValue α) → List (Bytes × LogValue α) → Prop
  | [], bs => bs = []
  | (key, v) :: attrs, bs => ∃ w attrs', bs = (key, w) :: attrs' ∧
      (if isSensitiveKey key then w = v ∨ v.text ≠ [] ∧ w.text ≠ [] else v.Varies w) ∧
      AttrsVary attrs attrs'
end

/-- `AttrsVary` on the attributes of a derivation; group names are the same. -/
def Derivation.Varies : Derivation α → Derivation α → Prop
  | .withAttrs attrs, d => ∃ attrs', d = .withAttrs attrs' ∧ AttrsVary attrs attrs'
  | .withGroup name, d => d = .withGroup name

/-- Two inputs of the handler that differ only in non-empty values under sensitive
keys. -/
structure Entry.Varies (e f : Entry α) : Prop where
  derivations : List.Forall₂ Derivation.Varies e.derivations f.derivations
  header : f.header = e.header
  attrs : AttrsVary e.attrs f.attrs

/-- No variation of the secrets of `e` shows in the output of the wrapped handler. -/
def Entry.Noninterfering (e : Entry α) : Prop :=
  ∀ f, e.Varies f → f.redact.resolve = e.redact.resolve

mutual
/-- The value holds a sensitive attribute that is not empty. -/
def LogValue.hasSecret : LogValue α → Bool
  | .string _ => false
  | .other _ => false
  | .group attrs => haveSecret attrs
  | .valuer _ v => v.hasSecret

/-- One of the attributes is sensitive and not empty, or holds such a one. -/
def haveSecret : List (Bytes × LogValue α) → Bool
  | [] => false
  | (key, v) :: attrs =>
    (if isSensitiveKey key then !v.text.isEmpty else v.hasSecret) || haveSecret attrs
end

mutual
/-- A valuer that redaction passes on holds a secret. -/
def LogValue.hidesSecret : LogValue α → Bool
  | .string _ => false
  | .other _ => false
  | .group attrs => hideSecret attrs
  | .valuer _ v => v.hasSecret

/-- One of the attributes has an insensitive key and hides a secret in a valuer. -/
def hideSecret : List (Bytes × LogValue α) → Bool
  | [] => false
  | (key, v) :: attrs => (!isSensitiveKey key && v.hidesSecret) || hideSecret attrs
end

/-- `hideSecret` on the attributes of a derivation -/
def Derivation.hidesSecret : Derivation α → Bool
  | .withAttrs attrs => hideSecret attrs
  | .withGroup _ => false

/-- A valuer somewhere in the input, outside the values of sensitive keys, holds a
secret. -/
def Entry.hidesSecret (e : Entry α) : Bool :=
  e.derivations.any Derivation.hidesSecret || hideSecret e.attrs

mutual
theorem LogValue.varies_refl (v : LogValue α) : v.Varies v := by
  match v with
  | .string s | .other x => rw [Varies]
  | .group attrs =>
    rw [Varies]
    exact ⟨attrs, rfl, attrsVary_refl attrs⟩
  | .valuer text v =>
    rw [Varies]
    exact ⟨text, v, rfl, v.varies_refl⟩

theorem attrsVary_refl (attrs : List (Bytes × LogValue α)) : AttrsVary attrs attrs := by
  match attrs with
  | [] => rw [AttrsVary]
  | (key, v) :: attrs =>
    rw [AttrsVary]
    refine ⟨v, attrs, rfl, ?_, attrsVary_refl attrs⟩
    split_ifs
    · exact .inl rfl
    · exact v.varies_refl
end

/-- The first attribute varies. -/
theorem attrsVary_head {key : Bytes} {v w : LogValue α} (attrs : List (Attr α))
    (h : if isSensitiveKey key then w = v ∨ v.text ≠ [] ∧ w.text ≠ [] else v.Varies w) :
    AttrsVary ((key, v) :: attrs) ((key, w) :: attrs) := by
  rw [AttrsVary]
  exact ⟨w, attrs, rfl, h, attrsVary_refl attrs⟩

/-- The attributes after the first vary. -/
theorem attrsVary_tail (a : Attr α) {attrs attrs' : List (Attr α)} (h : AttrsVary attrs attrs') :
    AttrsVary (a :: attrs) (a :: attrs') := by
  obtain ⟨key, v⟩ := a
  rw [AttrsVary]
  refine ⟨v, attrs', rfl, ?_, h⟩
  split_ifs
  · exact .inl rfl
  · exact v.varies_refl

/-! ## Which variations show -/

/-- All variations of the attributes look alike. -/
def Alike (view : List (Attr α) → List (Attr α)) (attrs : List (Attr α)) : Prop :=
  ∀ bs, AttrsVary attrs bs → view bs = view attrs

theorem alike_nil (view : List (Attr α) → List (Attr α)) : Alike view [] := by
  intro bs h
  rw [AttrsVary] at h
  rw [h]

/-- In a view that shows one attribute after the other, variations look alike if those of each
value do. -/
theorem alike_cons {view : List (Attr α) → List (Attr α)} {g : Bytes → LogValue α → LogValue α}
    (hview : ∀ key v attrs, view ((key, v) :: attrs) = shown key (g key v) ++ view attrs)
    {key : Bytes} {v : LogValue α} {attrs : List (Attr α)} :
    Alike view ((key, v) :: attrs) ↔
      (∀ w, (if isSensitiveKey key then w = v ∨ v.text ≠ [] ∧ w.text ≠ [] else v.Varies w) →
        g key w = g key v) ∧ Alike view attrs := by
  constructor
  · refine fun h => ⟨fun w hw => ?_, fun bs hbs => ?_⟩
    · have heq := h _ (attrsVary_head attrs hw)
      rw [hview, hview] at heq
      exact shown_inj (List.append_cancel_right heq)
    · have heq := h _ (attrsVary_tail (key, v) hbs)
      rw [hview, hview] at heq
      exact List.append_cancel_left heq
  · rintro ⟨hvalue, hrest⟩ bs h
    rw [AttrsVary] at h
    obtain ⟨w, attrs', rfl, hw, hattrs⟩ := h
    rw [hview, hview, hvalue w hw, hrest _ hattrs]

theorem alike_group {view : List (Attr α) → List (Attr α)} {g : LogValue α → LogValue α}
    (hg : ∀ attrs, g (.group attrs) = .group (view attrs)) {attrs : List (Attr α)} :
    (∀ w, (LogValue.group attrs).Varies w → g w = g (.group attrs)) ↔ Alike view attrs := by
  constructor
  · intro h bs hbs
    have heq := h (.group bs) (by rw [Varies]; exact ⟨bs, rfl, hbs⟩)
    rw [hg, hg] at heq
    exact LogValue.group.inj heq
  · intro h w hw
    rw [Varies] at hw
    obtain ⟨bs, rfl, hbs⟩ := hw
    rw [hg, hg, h bs hbs]

theorem alike_valuer {g : LogValue α → LogValue α} (hg : ∀ text v, g (.valuer text v) = v.resolve)
    {text : Bytes} {v : LogValue α} :
    (∀ w, (LogValue.valuer text v).Varies w → g w = g (.valuer text v)) ↔
      ∀ w, v.Varies w → w.resolve = v.resolve := by
  constructor
  · intro h w hw
    have heq := h (.valuer text w) (by rw [Varies]; exact ⟨text, w, rfl, hw⟩)
    rwa [hg, hg] at heq
  · intro h w hw
    rw [Varies] at hw
    obtain ⟨text', v', rfl, hv'⟩ := hw
    rw [hg, hg, h v' hv']

omit [UnicodeTables] in
/-- Every value has a non-empty one in its place that shows. -/
theorem LogValue.exists_other_text (v : LogValue α) :
    ∃ w : LogValue α, w.text ≠ [] ∧ w.resolve ≠ v.resolve := by
  by_cases h : v.resolve = .string [0]
  · refine ⟨.string [1], by simp [text], ?_⟩
    rw [h, resolve]
    simp
  · refine ⟨.string [0], by simp [text], ?_⟩
    rw [resolve]
    exact fun heq => h heq.symm

mutual
/-- A value that is passed on shows its secrets. -/
theorem LogValue.resolve_alike_iff (v : LogValue α) :
    (∀ w, v.Varies w → w.resolve = v.resolve) ↔ v.hasSecret = false := by
  match v with
  | .string s | .other x =>
    refine iff_of_true (fun w hw => ?_) rfl
    rw [Varies] at hw
    rw [hw]
  | .group attrs =>
    rw [alike_group fun attrs => by rw [resolve], hasSecret]
    exact resolveAttrs_alike_iff attrs
  | .valuer text v =>
    rw [alike_valuer fun text v => by rw [resolve], hasSecret]
    exact v.resolve_alike_iff

theorem resolveAttrs_alike_iff (attrs : List (Bytes × LogValue α)) :
    Alike resolveAttrs attrs ↔ haveSecret attrs = false := by
  match attrs with
  | [] => exact iff_of_true (alike_nil _) rfl
  | (key, v) :: attrs =>
    rw [alike_cons (g := fun _ v => v.resolve) fun key v attrs => by rw [resolveAttrs], haveSecret,
      Bool.or_eq_false_iff]
    refine and_congr ?_ (resolveAttrs_alike_iff attrs)
    split_ifs
    · constructor
      · intro h
        by_contra htext
        obtain ⟨w, hw, hother⟩ := v.exists_other_text
        exact hother (h w (.inr ⟨by simpa using htext, hw⟩))
      · rintro h w (rfl | ⟨htext, -⟩)
        · rfl
        · simp [htext] at h
    · exact v.resolve_alike_iff
end

theorem resolveAttrs_redactAttrs_cons (key : Bytes) (v : LogValue α) (attrs : List (Attr α)) :
    resolveAttrs (redactAttrs ((key, v) :: attrs)) =
      shown key (redactAttr (key, v)).2.resolve ++ resolveAttrs (redactAttrs attrs) := by
  have hkey : redactAttr (key, v) = (key, (redactAttr (key, v)).2) :=
    Prod.ext (redactAttr_fst (key, v)) rfl
  rw [redactAttrs, hkey, resolveAttrs]

mutual
theorem LogValue.redactAttr_alike_iff (v : LogValue α) {key : Bytes}
    (hkey : isSensitiveKey key = false) :
    (∀ w, v.Varies w → (redactAttr (key, w)).2.resolve = (redactAttr (key, v)).2.resolve) ↔
      v.hidesSecret = false := by
  match v with
  | .string s | .other x =>
    refine iff_of_true (fun w hw => ?_) rfl
    rw [Varies] at hw
    rw [hw]
  | .group attrs =>
    rw [alike_group (g := fun v => (redactAttr (key, v)).2.resolve)
      fun attrs => by rw [redactAttr_group hkey, resolve_groupValue], hidesSecret]
    exact redactAttrs_alike_iff attrs
  | .valuer text v =>
    rw [alike_valuer (g := fun v => (redactAttr (key, v)).2.resolve)
      fun text v => by rw [redactAttr_valuer hkey, resolve], hidesSecret]
    exact v.resolve_alike_iff

/-- **Redacted attributes show a secret exactly if they hide one in a valuer.** -/
theorem redactAttrs_alike_iff (attrs : List (Bytes × LogValue α)) :
    Alike (fun attrs => resolveAttrs (redactAttrs attrs)) attrs ↔ hideSecret attrs = false := by
  match attrs with
  | [] => exact iff_of_true (alike_nil _) rfl
  | (key, v) :: attrs =>
    rw [alike_cons (g := fun key v => (redactAttr (key, v)).2.resolve) resolveAttrs_redactAttrs_cons,
      hideSecret, Bool.or_eq_false_iff]
    refine and_congr ?_ (redactAttrs_alike_iff attrs)
    cases hkey : isSensitiveKey key with
    | true =>
      refine iff_of_true ?_ rfl
      rintro w (rfl | ⟨hv, hw⟩)
      · rfl
      · rw [redactAttr_sensitive hkey, redactAttr_sensitive hkey, redactValue, redactValue,
          if_neg hv, if_neg hw]
    | false => simpa using v.redactAttr_alike_iff hkey
end

/-! ## Whole inputs -/

theorem Derivation.varies_refl (d : Derivation α) : d.Varies d := by
  cases d with
  | withAttrs attrs => exact ⟨attrs, rfl, attrsVary_refl attrs⟩
  | withGroup name => rfl

theorem Derivation.alike_iff (d : Derivation α) :
    (∀ d', d.Varies d' → d'.redact.resolve = d.redact.resolve) ↔ d.hidesSecret = false := by
  cases d with
  | withAttrs attrs =>
    refine .trans ⟨fun h bs hbs => ?_, ?_⟩ (redactAttrs_alike_iff attrs)
    · exact Derivation.withAttrs.inj (h (.withAttrs bs) ⟨bs, rfl, hbs⟩)
    · rintro h _ ⟨bs, rfl, hbs⟩
      exact congrArg Derivation.withAttrs (h bs hbs)
  | withGroup name => exact iff_of_true (fun d' h => by rw [show d' = .withGroup name from h]) rfl

theorem derivations_alike_iff (ds : List (Derivation α)) :
    (∀ ds', List.Forall₂ Derivation.Varies ds ds' →
      (ds'.map fun d => d.redact.resolve) = ds.map fun d => d.redact.resolve) ↔
      ∀ d ∈ ds, d.hidesSecret = false := by
  induction ds with
  | nil => simp
  | cons d ds ih =>
    rw [List.forall_mem_cons, ← d.alike_iff, ← ih]
    constructor
    · refine fun h => ⟨fun d' hd' => ?_, fun ds' hds' => ?_⟩
      · have hsame := List.forall₂_same.mpr fun d (_ : d ∈ ds) => d.varies_refl
        exact (List.cons.inj (h (d' :: ds) (.cons hd' hsame))).1
      · exact (List.cons.inj (h (d :: ds') (.cons d.varies_refl hds'))).2
    · rintro ⟨hd, hds⟩ _ (_ | ⟨hd', hds'⟩)
      rw [List.map_cons, List.map_cons, hd _ hd', hds _ hds']

theorem Entry.resolve_redact (e : Entry α) : e.redact.resolve =
    ⟨e.derivations.map fun d => d.redact.resolve, e.header, resolveAttrs (redactAttrs e.attrs)⟩ := by
  rw [redact, resolve, List.map_map, resolveAttrs_filter]
  rfl

/-- **Redaction is noninterfering** exactly for the inputs that hide no secret in a
valuer. -/
theorem Entry.noninterfering_iff (e : Entry α) :
    e.Noninterfering ↔ e.hidesSecret = false := by
  have hall : e.hidesSecret = false ↔
      (∀ d ∈ e.derivations, d.hidesSecret = false) ∧ hideSecret e.attrs = false := by
    simp [Entry.hidesSecret]
  rw [hall, ← derivations_alike_iff, ← redactAttrs_alike_iff]
  constructor
  · refine fun h => ⟨fun ds hds => ?_, fun bs hbs => ?_⟩
    · have heq := h { e with derivations := ds } ⟨hds, rfl, attrsVary_refl e.attrs⟩
      rw [resolve_redact, resolve_redact] at heq
      exact (Entry.mk.inj heq).1
    · have hsame := List.forall₂_same.mpr fun d (_ : d ∈ e.derivations) => d.varies_refl
      have heq := h { e with attrs := bs } ⟨hsame, rfl, hbs⟩
      rw [resolve_redact, resolve_redact] at heq
      exact (Entry.mk.inj heq).2.2
  · rintro ⟨hds, hattrs⟩ f hf
    rw [resolve_redact, resolve_redact, hds _ hf.derivations, hf.header]
    exact congrArg _ (hattrs _ hf.attrs)

end Handler

/-- An integer is printed in decimal. -/
instance : Loggable ℤ := ⟨itoa⟩

/-- A login is logged with its user, a valuer that resolves to a group with the
session token. -/
def loginEntry (token : Bytes) : Entry ℤ where
  derivations := []
  header := { time := 0, level := 0, message := bytes "login", pc := 0 }
  attrs := [(bytes "user", .valuer (bytes "user 7") (.group
    [(bytes "id", .other 7), (bytes "token", .string token)]))]

/-- **The token of a valuer is written out**: two logins that differ only in their
tokens are told apart by the output behind the redacting handler. -/
theorem loginEntry_interferes :
    @Entry.Varies asciiTables ℤ _ (loginEntry (bytes "abc")) (loginEntry (bytes "xyz")) ∧
    (@Entry.redact asciiTables ℤ _ (loginEntry (bytes "abc"))).resolve.attrs =
      [(bytes "user", .group [(bytes "id", .other 7), (bytes "token", .string (bytes "abc"))])] ∧
    (@Entry.redact asciiTables ℤ _ (loginEntry (bytes "xyz"))).resolve.attrs =
      [(bytes "user", .group [(bytes "id", .other 7), (bytes "token", .string (bytes "xyz"))])] ∧
    bytes "abc" ≠ bytes "xyz" := by
  let := asciiTables
  have huser : isSensitiveKey (bytes "user") = false := by decide +kernel
  have htoken : isSensitiveKey (bytes "token") = true := by decide +kernel
  have hshown : ∀ token, (loginEntry token).redact.resolve.attrs =
      [(bytes "user", .group [(bytes "id", .other 7), (bytes "token", .string token)])] := by
    intro token
    rw [Entry.resolve_redact]
    simp only [loginEntry, redactAttrs, redactAttr_valuer huser]
    rfl
  refine ⟨⟨.nil, rfl, attrsVary_head [] ?_⟩, hshown _, hshown _, by decide +kernel⟩
  rw [if_neg (ne_true_of_eq_false huser), LogValue.Varies]
  refine ⟨_, _, rfl, ?_⟩
  rw [LogValue.Varies]
  refine ⟨_, rfl, attrsVary_tail _ (attrsVary_head [] ?_)⟩
  rw [if_pos htoken]
  exact .inr ⟨by decide +kernel, by decide +kernel⟩

end HstongApi
