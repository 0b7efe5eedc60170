import HstongApi.Utf8

/-!
# JSON documents

A JSON document is a text, a whole number, a list or an object. The texts are given by their pieces,
the characters of a Go string and the bytes that are not part of one: `encoding/json` writes a
character as it is or as an escape, and every other byte as the escape of `U+FFFD`.

How a document is written as text is left to the package. `JsonEncoder` is what the requests use of it,
and `FaithfulEncoder` says that a document can be read back from its text.

A Go struct becomes an object with the fields that are not left out, and since the names differ, the
fields that are left out can be told from the others: `struct_inj`.
-/

namespace HstongApi

open Utf8

/-- A JSON document. -/
inductive Json
  | text (t : List Piece)
  | number (n : ℤ)
  | list (items : List Json)
  | object (fields : List (List Piece × Json))

variable {members members' : List Member}

namespace Json

/-- The kinds of documents. -/
def kind : Json → ℕ
  | .text _ => 0
  | .number _ => 1
  | .list _ => 2
  | .object _ => 3

/-! ## Structs -/

/-- A field of a Go struct: the name and the option `omitempty` of its tag, and its value. -/
@[ext] structure Member where
  name : List Piece
  omitempty : Bool
  value : Json

/-- The values that `omitempty` leaves out. -/
def isEmpty : Json → Bool
  | .text t => t.isEmpty
  | .number n => n == 0
  | .list items => items.isEmpty
  | .object _ => false

namespace Member

/-- The field is in the document. -/
def isShown (m : Member) : Bool := !(m.omitempty && m.value.isEmpty)

/-- What is known of a field without its value. -/
def shape (m : Member) : List Piece × Bool × ℕ := (m.name, m.omitempty, m.value.kind)

end Member

/-- The fields of a struct that are in the document. -/
def fieldsOf (members : List Member) : List (List Piece × Json) :=
  (members.filter Member.isShown).map fun m => (m.name, m.value)

/-- **The document of a struct.** -/
def struct (members : List Member) : Json := .object (fieldsOf members)

/-- The value of a field of an object. -/
def get? (name : List Piece) : Json → Option Json
  | .object fields => fields.lookup name
  | _ => none

theorem fieldsOf_cons (m : Member) (members : List Member) :
    fieldsOf (m :: members) =
      if m.isShown then (m.name, m.value) :: fieldsOf members else fieldsOf members := by
  unfold fieldsOf
  rw [List.filter_cons]
  split <;> rfl

theorem name_mem_of_mem_fieldsOf {f : List Piece × Json} (h : f ∈ fieldsOf members) :
    f.1 ∈ members.map Member.name := by
  obtain ⟨m, hm, rfl⟩ := List.mem_map.mp h
  exact List.mem_map_of_mem (List.mem_of_mem_filter hm)

/-- Of each kind there is one empty value. -/
theorem eq_of_isEmpty {j k : Json} (hj : j.isEmpty = true) (hk : k.isEmpty = true)
    (hkind : j.kind = k.kind) : j = k := by
  match j, k with
  | .number n, .number m =>
    rw [eq_of_beq hj, eq_of_beq hk]
  | .text t, .text u | .list l, .list m =>
    rw [List.isEmpty_iff.mp hj, List.isEmpty_iff.mp hk]
  | .object f, _ => cases hj

/-- A field is not shown in a document that has no field of its name. -/
theorem not_isShown {m : Member} (hfresh : m.name ∉ members'.map Member.name)
    (h : fieldsOf (m :: members) = fieldsOf members') : m.isShown = false := by
  by_contra hshown
  rw [fieldsOf_cons, if_pos (Bool.not_eq_false _ ▸ hshown)] at h
  have hmem : (m.name, m.value) ∈ fieldsOf members' := h ▸ List.mem_cons_self
  exact hfresh (name_mem_of_mem_fieldsOf hmem)

theorem fieldsOf_inj (hshape : members.map Member.shape = members'.map Member.shape)
    (hnodup : (members.map Member.name).Nodup) (h : fieldsOf members = fieldsOf members') :
    members = members' := by
  induction members generalizing members' with
  | nil => exact (List.map_eq_nil_iff.mp hshape.symm).symm
  | cons m members ih =>
    cases members' with
    | nil => cases hshape
    | cons m' members' =>
      obtain ⟨hm, hrest⟩ := List.cons.inj hshape
      obtain ⟨hname, homit, hkind⟩ : m.name = m'.name ∧ m.omitempty = m'.omitempty ∧
        m.value.kind = m'.value.kind := by simpa [Member.shape] using hm
      obtain ⟨hfresh, hnodup⟩ := List.nodup_cons.mp hnodup
      have hnames : members.map Member.name = members'.map Member.name := by
        have hfst := congrArg (List.map Prod.fst) hrest
        rwa [List.map_map, List.map_map] at hfst
      have hfresh' : m'.name ∉ members'.map Member.name := by rwa [← hnames, ← hname]
      cases hshown : m.isShown with
      | true =>
        cases hshown' : m'.isShown with
        | true =>
          rw [fieldsOf_cons, fieldsOf_cons, if_pos hshown, if_pos hshown'] at h
          obtain ⟨hfield, h⟩ := List.cons.inj h
          rw [Member.ext hname homit (Prod.mk.inj hfield).2, ih hrest hnodup h]
        | false =>
          rw [fieldsOf_cons m', hshown', if_neg Bool.false_ne_true] at h
          rw [not_isShown (hnames ▸ hfresh) h] at hshown
          cases hshown
      | false =>
        rw [fieldsOf_cons m, hshown, if_neg Bool.false_ne_true] at h
        have hshown' : m'.isShown = false := not_isShown (hnames.symm ▸ hfresh') h.symm
        rw [fieldsOf_cons m', hshown', if_neg Bool.false_ne_true] at h
        simp only [Member.isShown, Bool.not_eq_false', Bool.and_eq_true] at hshown hshown'
        have hvalue := eq_of_isEmpty hshown.2 hshown'.2 hkind
        rw [Member.ext hname homit hvalue, ih hrest hnodup h]

/-- **The fields of a struct are determined by its document.** -/
theorem struct_inj (h : struct members = struct members')
    (hshape : members.map Member.shape = members'.map Member.shape)
    (hnodup : (members.map Member.name).Nodup) : members = members' :=
  fieldsOf_inj hshape hnodup (Json.object.inj h)

/-- **A field is found in the document**, unless it was left out. -/
theorem get?_struct (hnodup : (members.map Member.name).Nodup) {m : Member} (hm : m ∈ members) :
    (struct members).get? m.name = if m.isShown then some m.value else none := by
  change (fieldsOf members).lookup m.name = _
  induction members with
  | nil => cases hm
  | cons a members ih =>
    obtain ⟨hfresh, hnodup⟩ := List.nodup_cons.mp hnodup
    rw [fieldsOf_cons]
    rcases List.mem_cons.mp hm with rfl | hm
    · split
      · exact List.lookup_cons_self
      · refine List.lookup_eq_none_iff.mpr fun f hf => ?_
        have hmem := name_mem_of_mem_fieldsOf hf
        exact bne_iff_ne.mpr fun heq => hfresh (heq ▸ hmem)
    · have hne : m.name ≠ a.name := fun heq => hfresh (heq ▸ List.mem_map_of_mem hm)
      split
      · rw [List.lookup_cons, beq_false_of_ne hne]
        exact ih hnodup hm
      · exact ih hnodup hm

end Json

/-! ## Texts of documents -/

/-- What the requests use of `encoding/json`. -/
class JsonEncoder where
  /-- the texts that can be sent -/
  Text : Type
  /-- `json.Marshal`, which has no error for these documents -/
  marshal : Json → Text

/-- **A document can be read back from its text.** -/
class FaithfulEncoder [JsonEncoder] : Prop where
  marshal_injective : Function.Injective JsonEncoder.marshal

namespace Json

/-- The encoder that leaves documents as they are. -/
abbrev documents : JsonEncoder := ⟨Json, id⟩

theorem faithful_documents : @FaithfulEncoder documents :=
  @FaithfulEncoder.mk documents Function.injective_id

end Json

end HstongApi
