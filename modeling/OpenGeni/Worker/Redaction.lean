/-
Hiding secrets in what a turn publishes
(`apps/worker/src/activities/redaction.ts`).

The values of six units and more are replaced in every string of a payload, the longest first, each
by a marker with its name. The keys of an object are passed on as they are. A marker can also meet
the text around it, or a name, and make up a value that was replaced before.
-/
import OpenGeni.Lib.Json
import OpenGeni.Lib.Replace

namespace OpenGeni.Worker

open OpenGeni.Lib

/-! ## The model -/

def MIN_REDACTABLE_VALUE_LENGTH : ℕ := 6

structure SecretForRedaction where
  name : JsString
  value : JsString
deriving DecidableEq

def SecretForRedaction.marker (secret : SecretForRedaction) : JsString :=
  .ascii "[redacted:" ++ secret.name ++ .ascii "]"

def usableSecrets (secrets : List SecretForRedaction) : List SecretForRedaction :=
  (secrets.filter fun secret => MIN_REDACTABLE_VALUE_LENGTH ≤ secret.value.length).mergeSort
    fun a b => decide (b.value.length ≤ a.value.length)

def redactText (usable : List SecretForRedaction) (text : JsString) : JsString := usable.foldl (fun out secret =>
    if secret.value <:+: out then replaceAll secret.value secret.marker out else out) text

section

variable {N : Type}

mutual

def redact (usable : List SecretForRedaction) : Json N JsString → Json N JsString
  | .string s => .string (redactText usable s)
  | .array items => .array (redactItems usable items)
  | .object members => .object (redactMembers usable members)
  | payload => payload

def redactItems (usable : List SecretForRedaction) : List (Json N JsString) → List (Json N JsString)
  | [] => []
  | item :: rest => redact usable item :: redactItems usable rest

def redactMembers (usable : List SecretForRedaction) :
    List (JsString × Json N JsString) → List (JsString × Json N JsString)
  | [] => []
  | (key, value) :: rest => (key, redact usable value) :: redactMembers usable rest

end

def createSecretRedactor (secrets : List SecretForRedaction) (payload : Json N JsString) : Json N JsString :=
  if (usableSecrets secrets).isEmpty then payload else redact (usableSecrets secrets) payload

/-! ## The strings of a payload -/

mutual

/-- The strings of a payload at any depth, each with whether it is a key. -/
def stringsOf : Json N JsString → List (Bool × JsString)
  | .string s => [(false, s)]
  | .array items => stringsOfItems items
  | .object members => stringsOfMembers members
  | _ => []

def stringsOfItems : List (Json N JsString) → List (Bool × JsString)
  | [] => []
  | item :: rest => stringsOf item ++ stringsOfItems rest

def stringsOfMembers : List (JsString × Json N JsString) → List (Bool × JsString)
  | [] => []
  | (key, value) :: rest => (true, key) :: (stringsOf value ++ stringsOfMembers rest)

end

end

def Free (secrets : List SecretForRedaction) (text : JsString) : Prop :=
  ∀ secret ∈ secrets, MIN_REDACTABLE_VALUE_LENGTH ≤ secret.value.length → ¬ secret.value <:+: text

/-- The secrets are gone through in order; `done` are those before, and `markers` is what may have
been put into the text. Where a value may occur, its marker meets no value up to there. -/
def Sealed (text : JsString) : List SecretForRedaction → List JsString → List SecretForRedaction → Prop
  | _, _, [] => True
  | done, markers, secret :: rest =>
    if secret.value <:+: text ∨ ∃ marker ∈ markers, ¬ Detached secret.value marker then
      (∀ earlier ∈ secret :: done, Detached earlier.value secret.marker) ∧
        Sealed text (secret :: done) (secret.marker :: markers) rest
    else Sealed text (secret :: done) markers rest

/-! ## What redaction does -/

section

variable {N : Type} {usable : List SecretForRedaction}

def redactString (usable : List SecretForRedaction) (string : Bool × JsString) : Bool × JsString :=
  if string.1 then string else (false, redactText usable string.2)

mutual

theorem stringsOf_redact (payload : Json N JsString) :
    stringsOf (redact usable payload) = (stringsOf payload).map (redactString usable) := by
  cases payload with
  | array items => exact stringsOf_redactItems items
  | object members => exact stringsOf_redactMembers members
  | _ => rfl

theorem stringsOf_redactItems (items : List (Json N JsString)) :
    stringsOfItems (redactItems usable items) = (stringsOfItems items).map (redactString usable) := by
  match items with
  | [] => rfl
  | item :: rest =>
    rw [redactItems, stringsOfItems, stringsOfItems, List.map_append, stringsOf_redact item, stringsOf_redactItems rest]

theorem stringsOf_redactMembers (members : List (JsString × Json N JsString)) :
    stringsOfMembers (redactMembers usable members) = (stringsOfMembers members).map (redactString usable) := by
  match members with
  | [] => rfl
  | (key, value) :: rest =>
    rw [redactMembers, stringsOfMembers, stringsOfMembers, List.map_cons, List.map_append, stringsOf_redact value,
      stringsOf_redactMembers rest]
    rfl

end

theorem stringsOf_createSecretRedactor (secrets : List SecretForRedaction) (payload : Json N JsString) :
    stringsOf (createSecretRedactor secrets payload) = (stringsOf payload).map (redactString (usableSecrets secrets)) := by
  unfold createSecretRedactor
  split_ifs with hnone
  · -- without secrets a text is left as it is
    rw [List.isEmpty_iff.1 hnone]
    have hsame : ∀ string, redactString [] string = string := by
      rintro ⟨_ | _, text⟩
      · rfl
      · rfl
    rw [List.map_congr_left fun string _ => hsame string, List.map_id']
  · exact stringsOf_redact payload

variable {secrets : List SecretForRedaction}

theorem mem_usableSecrets {secret : SecretForRedaction} :
    secret ∈ usableSecrets secrets ↔ secret ∈ secrets ∧ MIN_REDACTABLE_VALUE_LENGTH ≤ secret.value.length := by
  rw [usableSecrets, List.mem_mergeSort, List.mem_filter, decide_eq_true_eq]

theorem Sealed.free {text : JsString} {done rest : List SecretForRedaction} {markers : List JsString}
    (h : Sealed text done markers rest) (hlong : ∀ secret ∈ rest, secret.value ≠ []) {out : JsString}
    (hdone : ∀ secret ∈ done, ¬ secret.value <:+: out)
    (hout : ∀ value, value <:+: out → value <:+: text ∨ ∃ marker ∈ markers, ¬ Detached value marker) :
    ∀ secret, secret ∈ done ∨ secret ∈ rest → ¬ secret.value <:+: redactText rest out := by
  induction rest generalizing done markers out with
  | nil =>
    rintro secret (hsecret | hsecret)
    · exact hdone secret hsecret
    · exact absurd hsecret List.not_mem_nil
  | cons secret rest ih =>
    have hlater : ∀ s ∈ rest, s.value ≠ [] := fun s hs => hlong s (List.mem_cons_of_mem secret hs)
    have hshift : ∀ s, s ∈ done ∨ s ∈ secret :: rest → s ∈ secret :: done ∨ s ∈ rest := by
      rintro s (hs | hs)
      · exact .inl (List.mem_cons_of_mem secret hs)
      · obtain rfl | hs := List.mem_cons.1 hs
        · exact .inl List.mem_cons_self
        · exact .inr hs
    intro s hs
    rw [redactText, List.foldl_cons]
    by_cases hincludes : secret.value <:+: out
    · rw [Sealed, if_pos (hout _ hincludes)] at h
      obtain ⟨hdetached, hrest⟩ := h
      rw [if_pos hincludes]
      refine ih hrest hlater ?_ ?_ s (hshift s hs)
      · intro earlier hearlier hoccurs
        obtain ⟨hbefore, hne⟩ := (hdetached earlier hearlier).occurs_replaceAll (hlong secret List.mem_cons_self) hoccurs
        obtain rfl | hearlier := List.mem_cons.1 hearlier
        · exact hne rfl
        · exact hdone earlier hearlier hbefore
      · intro value hoccurs
        by_cases hmeets : Detached value secret.marker
        · obtain ⟨hbefore, -⟩ := hmeets.occurs_replaceAll (hlong secret List.mem_cons_self) hoccurs
          obtain htext | ⟨marker, hmarker, hnot⟩ := hout value hbefore
          · exact .inl htext
          · exact .inr ⟨marker, List.mem_cons_of_mem _ hmarker, hnot⟩
        · exact .inr ⟨_, List.mem_cons_self, hmeets⟩
    · rw [if_neg hincludes]
      have hdone' : ∀ s ∈ secret :: done, ¬ s.value <:+: out := by
        intro s hs
        obtain rfl | hs := List.mem_cons.1 hs
        · exact hincludes
        · exact hdone s hs
      rw [Sealed] at h
      split_ifs at h with hmay
      · refine ih h.2 hlater hdone' ?_ s (hshift s hs)
        intro value hoccurs
        obtain htext | ⟨marker, hmarker, hnot⟩ := hout value hoccurs
        · exact .inl htext
        · exact .inr ⟨marker, List.mem_cons_of_mem _ hmarker, hnot⟩
      · exact ih h hlater hdone' hout s (hshift s hs)

theorem free_redactText {text : JsString} (h : Sealed text [] [] (usableSecrets secrets)) :
    Free secrets (redactText (usableSecrets secrets) text) := by
  intro secret hsecret hlong
  have hnonempty : ∀ s ∈ usableSecrets secrets, s.value ≠ [] := by
    intro s hs hnil
    have hlength := (mem_usableSecrets.1 hs).2
    rw [hnil] at hlength
    exact absurd hlength (by decide)
  exact h.free hnonempty (List.forall_mem_nil _) (fun _ hoccurs => .inl hoccurs) secret
    (.inr (mem_usableSecrets.2 ⟨hsecret, hlong⟩))

/-- **What redaction hides.** Where no marker can make up a value in a string value, no secret is left
in the payload exactly if none was in a key. -/
theorem redacted_free_iff (secrets : List SecretForRedaction) (payload : Json N JsString)
    (hsealed : ∀ text, (false, text) ∈ stringsOf payload → Sealed text [] [] (usableSecrets secrets)) :
    (∀ string ∈ stringsOf (createSecretRedactor secrets payload), Free secrets string.2) ↔
      ∀ key, (true, key) ∈ stringsOf payload → Free secrets key := by
  rw [stringsOf_createSecretRedactor, List.forall_mem_map]
  constructor
  · intro h key hkey
    exact h (true, key) hkey
  · rintro h ⟨_ | _, text⟩ hmem
    · exact free_redactText (hsealed text hmem)
    · exact h text hmem

end

/-- A value in the middle of a string is hidden; no key has it. -/
theorem redacted_free_embedded : ¬ Free [⟨.ascii "TOKEN", .ascii "abcdef"⟩] (.ascii "x=abcdef;") ∧
    ∀ string ∈ stringsOf (createSecretRedactor [⟨.ascii "TOKEN", .ascii "abcdef"⟩]
      (.object [(.ascii "out", .string (.ascii "x=abcdef;"))] : Json Unit JsString)),
      Free [⟨.ascii "TOKEN", .ascii "abcdef"⟩] string.2 := by
  refine ⟨fun h => h _ List.mem_cons_self (by decide) (by decide), (redacted_free_iff _ _ ?_).2 ?_⟩
  · intro text htext
    have heq : text = .ascii "x=abcdef;" := by simpa [stringsOf, stringsOfMembers] using htext
    subst heq
    have husable : usableSecrets [⟨.ascii "TOKEN", .ascii "abcdef"⟩] = [⟨.ascii "TOKEN", .ascii "abcdef"⟩] := by
      exact List.mergeSort_singleton _
    rw [husable, Sealed, if_pos (.inl (by decide))]
    refine ⟨?_, trivial⟩
    intro earlier hearlier
    rw [List.mem_singleton.1 hearlier]
    decide
  · intro key hkey secret hsecret _
    have heq : key = .ascii "out" := by simpa [stringsOf, stringsOfMembers] using hkey
    rw [heq, List.mem_singleton.1 hsecret]
    decide

/-- A secret that is a key of an object is published. -/
theorem secret_key_published : ¬ ∀ (secrets : List SecretForRedaction) (payload : Json Unit JsString),
      (∀ secret ∈ secrets, MIN_REDACTABLE_VALUE_LENGTH ≤ secret.value.length) →
        ∀ string ∈ stringsOf (createSecretRedactor secrets payload), Free secrets string.2 := by
  intro h
  let secret : SecretForRedaction := ⟨.ascii "TOKEN", .ascii "abcdef"⟩
  have hlong : ∀ s ∈ [secret], MIN_REDACTABLE_VALUE_LENGTH ≤ s.value.length := by decide
  have hmem : (true, JsString.ascii "abcdef") ∈
      stringsOf (createSecretRedactor [secret] (.object [(.ascii "abcdef", .null)] : Json Unit JsString)) := by
    rw [stringsOf_createSecretRedactor]
    exact List.mem_map.2 ⟨(true, .ascii "abcdef"), List.mem_cons_self, rfl⟩
  exact h [secret] _ hlong _ hmem secret List.mem_cons_self (by decide) (by decide)

end OpenGeni.Worker
