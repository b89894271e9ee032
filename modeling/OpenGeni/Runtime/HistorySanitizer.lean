/-
Which history items go to the model
(`packages/runtime/src/history-sanitizer.ts`, `sanitizeHistoryItemsForModel`).

Three passes over the items fill a set of dropped indices. The first goes forward with
the ids of the calls that wait for a result: a call makes its id wait, a result whose id
waits settles it, and any other result is dropped. The second goes backward with the ids
that still wait and drops the last call of each. The third drops the reasoning items that
lead to a dropped item.

Items are values of any type with fields to read, so that the result is a list of the
same items. A map from result types to sets of ids is the set of its pairs.
-/
import OpenGeni.Lib.Pairing

namespace OpenGeni.Runtime

open OpenGeni.Lib

/-! ## Items -/

/-- What a JSON value is to this code; what nothing reads of it is left out. -/
inductive JsValue
  | undefined
  | null
  | boolean
  | number
  | string (s : String)
  | object (fields : List (String × JsValue))

def JsValue.get (v : JsValue) (name : String) : JsValue := match v with
  | .object fields => (fields.lookup name).getD .undefined
  | _ => .undefined

def itemType (item : JsValue) : Option String := match item.get "type" with
  | .string type => some type
  | _ => none

def JsValue.id? (v : JsValue) (name : String) : Option String := match v.get name with
  | .string s => if 0 < s.length then some s else none
  | _ => none

def callIdOf (item : JsValue) : Option String := (item.id? "callId").or <| (item.id? "call_id").or <|
    let provider := item.get "providerData"
    (provider.id? "call_id").or (provider.id? "callId")

def TOOL_CALL_RESULT_TYPE_BY_CALL_TYPE : List (String × String) :=
  [("function_call", "function_call_result"), ("computer_call", "computer_call_result"),
    ("shell_call", "shell_call_output"), ("apply_patch_call", "apply_patch_call_output"),
    ("tool_search_call", "tool_search_output")]

def RESULT_TYPES : List String := TOOL_CALL_RESULT_TYPE_BY_CALL_TYPE.map Prod.snd

/-- The names every object inherits from `Object.prototype`. -/
def objectPrototypeNames : List String :=
  ["constructor", "__defineGetter__", "__defineSetter__", "hasOwnProperty", "__lookupGetter__",
    "__lookupSetter__", "isPrototypeOf", "propertyIsEnumerable", "toString", "valueOf",
    "__proto__", "toLocaleString"]

inductive Property
  | own (resultType : String)
  | inherited (name : String)
deriving DecidableEq

/-- `RESULT_TYPE_BY_CALL_TYPE[type]`. The table is a plain object, so the lookup also finds
what it inherits. -/
def RESULT_TYPE_BY_CALL_TYPE (type : String) : Option Property :=
  match TOOL_CALL_RESULT_TYPE_BY_CALL_TYPE.lookup type with
  | some resultType => some (.own resultType)
  | none => if type ∈ objectPrototypeNames then some (.inherited type) else none

/-! ## The passes -/

structure Sanitizer where
  /-- `openCallIdsByResultType`, then `stillOpen`. -/
  openCallIds : Finset (Property × String)
  dropped : Finset ℕ

/-- `type` and `callId` of an item, if it has both. -/
def correlated (item : JsValue) : Option (String × String) := match itemType item, callIdOf item with
  | some type, some callId => if type = "" then none else some (type, callId)
  | _, _ => none

def scanItem (item : JsValue) (index : ℕ) (s : Sanitizer) : Sanitizer := match correlated item with
  | none => s
  | some (type, callId) =>
    match RESULT_TYPE_BY_CALL_TYPE type with
    | some callResultType =>
      { s with openCallIds := insert (callResultType, callId) s.openCallIds }
    | none =>
      if type ∈ RESULT_TYPES then
        if (.own type, callId) ∈ s.openCallIds then
          { s with openCallIds := s.openCallIds.erase (.own type, callId) }
        else { s with dropped := insert index s.dropped }
      else s

def rewalkItem (item : JsValue) (index : ℕ) (s : Sanitizer) : Sanitizer :=
  match correlated item with
  | none => s
  | some (type, callId) =>
    match RESULT_TYPE_BY_CALL_TYPE type with
    | none => s
    | some resultType =>
      if (resultType, callId) ∈ s.openCallIds then
        { openCallIds := s.openCallIds.erase (resultType, callId), dropped := insert index s.dropped }
      else s

section Items

variable {T : Type*} (fields : T → JsValue)

/-- The inner loop of the third pass: the index of the next item that is no reasoning. -/
def nextItem : List (T × ℕ) → Option ℕ
  | [] => none
  | (item, next) :: rest => if itemType (fields item) = some "reasoning" then nextItem rest else some next

def strandItem (items : List T) (dropped : Finset ℕ) (item : T) (index : ℕ) : Finset ℕ :=
  if index ∈ dropped ∨ itemType (fields item) ≠ some "reasoning" then dropped
  else
    match nextItem fields (items.zipIdx.drop (index + 1)) with
    | some next => if next ∈ dropped then insert index dropped else dropped
    | none => dropped

def scan (items : List T) : Sanitizer := items.zipIdx.foldl (fun s x => scanItem (fields x.1) x.2 s) ⟨∅, ∅⟩

/-- The backward walk over the items from the index `first` on. -/
def rewalk (items : List T) (first : ℕ) (s : Sanitizer) : Sanitizer :=
  (items.zipIdx first).foldr (fun x s => rewalkItem (fields x.1) x.2 s) s

def strand (items : List T) (dropped : Finset ℕ) : Finset ℕ :=
  items.zipIdx.foldl (fun dropped x => strandItem fields items dropped x.1 x.2) dropped

/-- `dropped`, after the passes. -/
def droppedIndices (items : List T) : Finset ℕ := let dropped := (rewalk fields items 0 (scan fields items)).dropped
  if dropped = ∅ then ∅ else strand fields items dropped

def sanitizeHistoryItemsForModel (items : List T) : List T := if items.isEmpty then []
  else if droppedIndices fields items = ∅ then items
  else (items.zipIdx.filter fun x => decide (x.2 ∉ droppedIndices fields items)).map Prod.fst

end Items

end OpenGeni.Runtime
