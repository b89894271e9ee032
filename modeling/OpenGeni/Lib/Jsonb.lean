/-
Operations on JSON values as the database has them.

An object is read by its keys, so where a member stands in it says nothing. The strip of the nulls
goes into every depth; an item of an array stays.
-/
import OpenGeni.Lib.Json

namespace OpenGeni.Lib.Json

variable {N S : Type}

/-! ## The operations -/

def isNull : Json N S → Bool
  | .null => true
  | _ => false

mutual

/-- `jsonb_strip_nulls(value)`. -/
def stripNulls : Json N S → Json N S
  | .null => .null
  | .boolean b => .boolean b
  | .number n => .number n
  | .string s => .string s
  | .array items => .array (stripItems items)
  | .object members => .object (stripMembers members)

def stripItems : List (Json N S) → List (Json N S)
  | [] => []
  | item :: rest => stripNulls item :: stripItems rest

def stripMembers : List (S × Json N S) → List (S × Json N S)
  | [] => []
  | (name, value) :: rest =>
    if value.isNull then stripMembers rest else (name, stripNulls value) :: stripMembers rest

end

mutual

def nullFree : Json N S → Bool
  | .array items => nullFreeItems items
  | .object members => nullFreeMembers members
  | _ => true

def nullFreeItems : List (Json N S) → Bool
  | [] => true
  | item :: rest => nullFree item && nullFreeItems rest

def nullFreeMembers : List (S × Json N S) → Bool
  | [] => true
  | (_, value) :: rest => !value.isNull && nullFree value && nullFreeMembers rest

end

def Survives (value : Json N S) : Prop := value.isNull = false ∧ value.nullFree = true

section

variable [BEq S]

/-- `left || right` of two objects. -/
def concatMembers (left right : List (S × Json N S)) : List (S × Json N S) :=
  right ++ left.filter fun m => (right.lookup m.1).isNone

/-- `jsonb_set(object, '{name}', value, true)`. -/
def setMember (name : S) (value : Json N S) (members : List (S × Json N S)) : List (S × Json N S) :=
  (name, value) :: members.filter fun m => m.1 != name

end

/-! ## The strip -/

theorem isNull_stripNulls (value : Json N S) : value.stripNulls.isNull = value.isNull := by
  cases value <;> simp [stripNulls, isNull]

theorem length_stripMembers_le (members : List (S × Json N S)) : (stripMembers members).length ≤ members.length := by
  induction members with
  | nil => simp [stripMembers]
  | cons m rest ih =>
    rw [stripMembers]
    split_ifs
    · exact ih.trans (Nat.le_succ _)
    · exact Nat.succ_le_succ ih

mutual

/-- **The strip leaves what is free of nulls**, and nothing else. -/
theorem stripNulls_eq_iff (value : Json N S) : value.stripNulls = value ↔ value.nullFree = true := by
  cases value with
  | array items =>
    rw [stripNulls, nullFree, ← stripItems_eq_iff items]
    exact ⟨fun h => by injection h, fun h => by rw [h]⟩
  | object members =>
    rw [stripNulls, nullFree, ← stripMembers_eq_iff members]
    exact ⟨fun h => by injection h, fun h => by rw [h]⟩
  | _ => simp [stripNulls, nullFree]

theorem stripItems_eq_iff (items : List (Json N S)) : stripItems items = items ↔ nullFreeItems items = true := by
  match items with
  | [] => simp [stripItems, nullFreeItems]
  | item :: rest =>
    rw [stripItems, nullFreeItems, Bool.and_eq_true, ← stripNulls_eq_iff item, ← stripItems_eq_iff rest,
      List.cons.injEq]

theorem stripMembers_eq_iff (members : List (S × Json N S)) :
    stripMembers members = members ↔ nullFreeMembers members = true := by
  match members with
  | [] => simp [stripMembers, nullFreeMembers]
  | (name, value) :: rest =>
    rw [stripMembers, nullFreeMembers, Bool.and_eq_true, Bool.and_eq_true, ← stripNulls_eq_iff value,
      ← stripMembers_eq_iff rest]
    cases hnull : value.isNull with
    | true =>
      -- a member less than there were
      have hlength := length_stripMembers_le rest
      refine iff_of_false (fun h => ?_) (fun h => by simp at h)
      have hlengths := congrArg List.length h
      rw [if_pos rfl, List.length_cons] at hlengths
      omega
    | false => simp

end

/-! ## Reading the results by their keys -/

section

variable [BEq S] [LawfulBEq S] {name : S}

theorem lookup_filter (keep : S → Bool) (members : List (S × Json N S)) (hkeep : keep name = true) :
    (members.filter fun m => keep m.1).lookup name = members.lookup name := by
  induction members with
  | nil => rfl
  | cons m rest ih =>
    obtain ⟨key, value⟩ := m
    rw [List.lookup_cons, List.filter_cons]
    cases hname : name == key with
    | true =>
      rw [← eq_of_beq hname, if_pos hkeep, List.lookup_cons]
      simp
    | false =>
      split_ifs
      · rw [List.lookup_cons, hname]
        exact ih
      · exact ih

theorem lookup_setMember_self (value : Json N S) (members : List (S × Json N S)) :
    (setMember name value members).lookup name = some value := by
  simp [setMember]

theorem lookup_setMember_ne {other : S} (hne : other ≠ name) (value : Json N S) (members : List (S × Json N S)) :
    (setMember name value members).lookup other = members.lookup other := by
  unfold setMember
  rw [List.lookup_cons, beq_false_of_ne hne]
  exact lookup_filter (· != name) members (bne_iff_ne.mpr hne)

theorem lookup_concatMembers (left right : List (S × Json N S)) :
    (concatMembers left right).lookup name = (right.lookup name).or (left.lookup name) := by
  unfold concatMembers
  rw [List.lookup_append]
  cases hright : right.lookup name with
  | some value => rfl
  | none =>
    rw [Option.none_or, Option.none_or]
    exact lookup_filter (fun key => (right.lookup key).isNone) left (by rw [hright]; rfl)

omit [LawfulBEq S] in
theorem lookup_stripMembers_eq_iff (members : List (S × Json N S)) :
    (stripMembers members).lookup name = members.lookup name ↔
      ∀ value, members.lookup name = some value → value.Survives := by
  have hnever : ∀ rest : List (S × Json N S), (stripMembers rest).lookup name ≠ some .null := by
    intro rest
    induction rest with
    | nil => simp [stripMembers]
    | cons m rest ih =>
      obtain ⟨key, value⟩ := m
      rw [stripMembers]
      split_ifs with hnull
      · exact ih
      · rw [List.lookup_cons]
        split
        · intro h
          have := isNull_stripNulls value
          rw [Option.some.inj h] at this
          exact hnull this.symm
        · exact ih
  induction members with
  | nil => simp [stripMembers]
  | cons m rest ih =>
    obtain ⟨key, value⟩ := m
    rw [stripMembers, List.lookup_cons]
    cases hname : name == key with
    | false =>
      split_ifs
      · exact ih
      · rw [List.lookup_cons, hname]
        exact ih
    | true =>
      split_ifs with hnull
      · refine iff_of_false (fun h => ?_) (fun h => ?_)
        · cases value <;> simp [isNull] at hnull
          exact hnever rest h
        · simpa [Survives, hnull] using h value rfl
      · rw [List.lookup_cons, hname]
        simp [Survives, hnull, stripNulls_eq_iff]

omit [BEq S] [LawfulBEq S] in
theorem stripMembers_append (left right : List (S × Json N S)) :
    stripMembers (left ++ right) = stripMembers left ++ stripMembers right := by
  induction left with
  | nil => simp [stripMembers]
  | cons m rest ih =>
    rw [List.cons_append, stripMembers, stripMembers, ih]
    split_ifs <;> rfl

theorem lookup_stripMembers_concat (left : List (S × Json N S)) {right : List (S × Json N S)}
    (h : (right.lookup name).isSome = true) :
    (stripMembers (concatMembers left right)).lookup name = (stripMembers right).lookup name := by
  have hhidden : (left.filter fun m => (right.lookup m.1).isNone).lookup name = none := by
    rw [List.lookup_eq_none_iff]
    rintro ⟨key, value⟩ hmem
    have hnone := (List.mem_filter.mp hmem).2
    rw [bne_iff_ne]
    rintro rfl
    rw [Option.isNone_iff_eq_none] at hnone
    rw [hnone] at h
    cases h
  have hstripped := (lookup_stripMembers_eq_iff _).mpr fun value hvalue => by
    rw [hhidden] at hvalue
    cases hvalue
  unfold concatMembers
  rw [stripMembers_append, List.lookup_append, hstripped, hhidden, Option.or_none]

end

end OpenGeni.Lib.Json
