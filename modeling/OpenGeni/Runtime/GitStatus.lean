/-
Reading what git prints with `-z`
(`packages/runtime/src/sandbox/channel-a.ts`, `parsePorcelainV2` and `parseNumstatZ`).

A record ends with a NUL, and a renamed entry takes one or two records more. The kind of a record is
told by its first characters. A path comes last in its record, behind a fixed number of fields, so
the spaces and tabs of a path stay in it, and the records behind a rename are taken by their place.

Only the mark that git prints in the place of a detached head is also the name of a branch.
-/
import OpenGeni.Lib.JsString

namespace OpenGeni.Runtime

open OpenGeni.Lib

/-! ## What the parsers return -/

inductive GitFileStatusCode
  | added
  | modified
  | deleted
  | renamed
  | copied
  | typechange
  | conflicted
  | untracked
  | ignored
deriving DecidableEq

structure GitFileStatus where
  path : List Char
  oldPath : Option (List Char)
  index : Option GitFileStatusCode
  worktree : Option GitFileStatusCode
  isConflicted : Bool
deriving DecidableEq

structure GitStatus where
  head : Option (List Char)
  detached : Bool
  upstream : Option (List Char)
  ahead : ℕ
  behind : ℕ
  files : List GitFileStatus
deriving DecidableEq

structure NumstatEntry where
  additions : ℕ
  deletions : ℕ
  binary : Bool
  oldPath : Option (List Char)
  newPath : List Char
deriving DecidableEq

/-! ## `parsePorcelainV2` -/

def NUL : Char := Char.ofNat 0

def xyCode (c : Char) : Option GitFileStatusCode := if c = 'A' then some .added
  else if c = 'M' then some .modified
  else if c = 'D' then some .deleted
  else if c = 'R' then some .renamed
  else if c = 'C' then some .copied
  else if c = 'T' then some .typechange
  else if c = 'U' then some .conflicted
  else none

def statusFromXY (xy path : List Char) (oldPath : Option (List Char)) : GitFileStatus := let x := xy.getD 0 '.'
  let y := xy.getD 1 '.'
  { path, oldPath, index := xyCode x, worktree := xyCode y, isConflicted := x == 'U' || y == 'U' }

/-- `text.match(/\+(\d+)\s+-(\d+)/)` from the first character on. -/
def matchCountsHere : List Char → Option (ℕ × ℕ)
  | '+' :: text =>
    let ahead := text.takeWhile Char.isDigit
    let rest := text.dropWhile Char.isDigit
    match rest.dropWhile isWhiteSpace with
    | '-' :: tail =>
      let behind := tail.takeWhile Char.isDigit
      if ahead = [] ∨ rest.takeWhile isWhiteSpace = [] ∨ behind = [] then none
      else some (Nat.ofDigitChars 10 ahead 0, Nat.ofDigitChars 10 behind 0)
    | _ => none
  | _ => none

def matchCounts : List Char → Option (ℕ × ℕ)
  | [] => none
  | c :: text => (matchCountsHere (c :: text)).or (matchCounts text)

/-- `record.split(" ").slice(n).join(" ")`. -/
def fieldsFrom (n : ℕ) (record : List Char) : List Char := [' '].intercalate ((record.splitOn ' ').drop n)

/-- `record.split(" ")[1] ?? ".."`. -/
def xyField (record : List Char) : List Char := (record.splitOn ' ').getD 1 "..".toList

def GitStatus.empty : GitStatus :=
  { head := none, detached := false, upstream := none, ahead := 0, behind := 0, files := [] }

def GitStatus.push (status : GitStatus) (file : GitFileStatus) : GitStatus :=
  { status with files := status.files ++ [file] }

/-- What a record other than that of a rename does to the result. -/
def readRecord (status : GitStatus) (record : List Char) : GitStatus :=
  if "# branch.head ".toList.isPrefixOf record then
    let value := record.drop 14
    if value = "(detached)".toList then { status with detached := true, head := none }
    else { status with head := some value }
  else if "# branch.upstream ".toList.isPrefixOf record then { status with upstream := some (record.drop 18) }
  else if "# branch.ab ".toList.isPrefixOf record then
    match matchCounts (record.drop 12) with
    | some (ahead, behind) => { status with ahead, behind }
    | none => status
  else if "1 ".toList.isPrefixOf record then status.push (statusFromXY (xyField record) (fieldsFrom 8 record) none)
  else if "u ".toList.isPrefixOf record then
    status.push { path := fieldsFrom 10 record, oldPath := none, index := some .conflicted,
                  worktree := some .conflicted, isConflicted := true }
  else if "? ".toList.isPrefixOf record then
    status.push { path := record.drop 2, oldPath := none, index := none, worktree := some .untracked, isConflicted := false }
  else if "! ".toList.isPrefixOf record then
    status.push { path := record.drop 2, oldPath := none, index := none, worktree := some .ignored, isConflicted := false }
  else status

/-- The loop over the records; a rename takes the next one as well. -/
def readRecords : GitStatus → List (List Char) → GitStatus
  | status, [] => status
  | status, record :: rest =>
    if "2 ".toList.isPrefixOf record then
      let file := statusFromXY (xyField record) (fieldsFrom 9 record)
      match rest with
      | [] => status.push (file none)
      | oldPath :: rest => readRecords (status.push (file (some oldPath))) rest
    else readRecords (readRecord status record) rest

def parsePorcelainV2 (z : List Char) : GitStatus := readRecords GitStatus.empty (z.splitOn NUL)

/-! ## `parseNumstatZ` -/

/-- `(\d+|-)` and the tab behind it, at the start of the text. -/
def readCount (text : List Char) : Option (List Char × List Char) :=
  let digits := if text.head? = some '-' then ['-'] else text.takeWhile Char.isDigit
  match text.drop digits.length with
  | '\t' :: rest => if digits = [] then none else some (digits, rest)
  | _ => none

/-- `head.match(/^(\d+|-)\t(\d+|-)\t(.*)$/s)`. -/
def matchNumstat (head : List Char) : Option (List Char × List Char × List Char) :=
  (readCount head).bind fun first => (readCount first.2).map fun second => (first.1, second.1, second.2)

def numstatEntry (addStr delStr : List Char) (oldPath : Option (List Char)) (newPath : List Char) : NumstatEntry :=
  -- git prints no dash on one side only
  let binary := addStr == ['-'] && delStr == ['-']
  { additions := if binary then 0 else Nat.ofDigitChars 10 addStr 0
    deletions := if binary then 0 else Nat.ofDigitChars 10 delStr 0
    binary, oldPath, newPath }

/-- The loop over the fields; the paths of a rename are the next two. -/
def readNumstat : List (List Char) → List NumstatEntry
  | [] => []
  | head :: rest =>
    match matchNumstat head with
    | none => readNumstat rest
    | some (addStr, delStr, []) =>
      match rest with
      | [] => [numstatEntry addStr delStr none []]
      | [oldPath] => [numstatEntry addStr delStr (some oldPath) []]
      | oldPath :: newPath :: rest => numstatEntry addStr delStr (some oldPath) newPath :: readNumstat rest
    | some (addStr, delStr, pathPart) => numstatEntry addStr delStr none pathPart :: readNumstat rest

def parseNumstatZ (z : List Char) : List NumstatEntry := readNumstat (z.splitOn NUL)

/-! ## What git prints -/

def terminated (records : List (List Char)) : List Char := records.flatMap (· ++ [NUL])

abbrev GitPath := { text : List Char // text ≠ [] ∧ NUL ∉ text }

/-- Fields without a space in them, each with a space behind it, and a path. -/
def joinFields (fields : List (List Char)) (path : List Char) : List Char :=
  fields.foldr (fun field text => field ++ ' ' :: text) path

/-- The modes, object names and other fields that a record has between its letters and its path. -/
structure Fields (n : ℕ) where
  texts : List (List Char)
  count : texts.length = n
  plain : ∀ text ∈ texts, ' ' ∉ text ∧ NUL ∉ text

inductive Change
  | unmodified
  | modified
  | typechange
  | added
  | deleted
  | renamed
  | copied

def Change.letter : Change → Char
  | .unmodified => '.'
  | .modified => 'M'
  | .typechange => 'T'
  | .added => 'A'
  | .deleted => 'D'
  | .renamed => 'R'
  | .copied => 'C'

def Change.code : Change → Option GitFileStatusCode
  | .unmodified => none
  | .modified => some .modified
  | .typechange => some .typechange
  | .added => some .added
  | .deleted => some .deleted
  | .renamed => some .renamed
  | .copied => some .copied

inductive StatusEntry
  | ordinary (x y : Change) (fields : Fields 6) (path : GitPath)
  | renamed (x y : Change) (fields : Fields 7) (path origPath : GitPath)
  | unmerged (fields : Fields 9) (path : GitPath)
  | untracked (path : GitPath)
  | ignored (path : GitPath)

namespace StatusEntry

/-- The records of `git status --porcelain=v2 -z`. -/
def records : StatusEntry → List (List Char)
  | ordinary x y fields path => [joinFields (['1'] :: [x.letter, y.letter] :: fields.texts) path.1]
  | renamed x y fields path origPath =>
    [joinFields (['2'] :: [x.letter, y.letter] :: fields.texts) path.1, origPath.1]
  | unmerged fields path => [joinFields (['u'] :: fields.texts) path.1]
  | untracked path => ['?' :: ' ' :: path.1]
  | ignored path => ['!' :: ' ' :: path.1]

def file : StatusEntry → GitFileStatus
  | ordinary x y _ path => ⟨path.1, none, x.code, y.code, false⟩
  | renamed x y _ path origPath => ⟨path.1, some origPath.1, x.code, y.code, false⟩
  | unmerged _ path => ⟨path.1, none, some .conflicted, some .conflicted, true⟩
  | untracked path => ⟨path.1, none, none, some .untracked, false⟩
  | ignored path => ⟨path.1, none, none, some .ignored, false⟩

end StatusEntry

/-- The branch that is checked out; `none` is a detached head. The counts are printed for an
upstream that exists. -/
structure BranchHeader where
  oid : List Char
  branch : Option (List Char)
  upstream : Option (List Char)
  counts : Option (ℕ × ℕ)
  noNul : NUL ∉ oid ∧ (∀ name ∈ branch, NUL ∉ name) ∧ ∀ name ∈ upstream, NUL ∉ name

namespace BranchHeader

def printCounts (counts : ℕ × ℕ) : List Char :=
  "# branch.ab ".toList ++ '+' :: (Nat.toDigits 10 counts.1 ++ ' ' :: '-' :: Nat.toDigits 10 counts.2)

/-- The records of `--branch`. -/
def records (header : BranchHeader) : List (List Char) := ("# branch.oid ".toList ++ header.oid) ::
    ("# branch.head ".toList ++ header.branch.getD "(detached)".toList) ::
    (header.upstream.toList.map ("# branch.upstream ".toList ++ ·) ++ header.counts.toList.map printCounts)

def status (header : BranchHeader) : GitStatus where
  head := header.branch
  detached := header.branch.isNone
  upstream := header.upstream
  ahead := (header.counts.map Prod.fst).getD 0
  behind := (header.counts.map Prod.snd).getD 0
  files := []

end BranchHeader

/-- A file of `git diff --numstat`: the changed lines, which a binary file has not, and the path it
was renamed from. -/
structure NumstatFile where
  lines : Option (ℕ × ℕ)
  oldPath : Option GitPath
  newPath : GitPath

namespace NumstatFile

def counts (file : NumstatFile) : List Char := match file.lines with
  | none => ['-', '\t', '-', '\t']
  | some (additions, deletions) => Nat.toDigits 10 additions ++ '\t' :: (Nat.toDigits 10 deletions ++ ['\t'])

/-- The records of `git diff -z --numstat`. -/
def records (file : NumstatFile) : List (List Char) := match file.oldPath with
  | none => [file.counts ++ file.newPath.1]
  | some oldPath => [file.counts, oldPath.1, file.newPath.1]

def entry (file : NumstatFile) : NumstatEntry where
  additions := (file.lines.map Prod.fst).getD 0
  deletions := (file.lines.map Prod.snd).getD 0
  binary := file.lines.isNone
  oldPath := file.oldPath.map Subtype.val
  newPath := file.newPath.1

end NumstatFile

/-! ## The records are told apart -/

theorem splitOn_terminated {mark : Char} {records : List (List Char)} (h : ∀ record ∈ records, mark ∉ record) :
    (records.flatMap (· ++ [mark])).splitOn mark = records ++ [[]] := by
  induction records with
  | nil => rfl
  | cons record records ih =>
    rw [List.flatMap_cons, List.append_assoc, List.singleton_append,
      List.splitOn_append_cons_self_of_not_mem (h record List.mem_cons_self)]
    exact congrArg (record :: ·) (ih fun r hr => h r (List.mem_cons_of_mem record hr))

variable {fields : List (List Char)}

theorem splitOn_joinFields (h : ∀ field ∈ fields, ' ' ∉ field) (path : List Char) :
    (joinFields fields path).splitOn ' ' = fields ++ path.splitOn ' ' := by
  induction fields with
  | nil => rfl
  | cons field fields ih =>
    rw [joinFields, List.foldr_cons, List.splitOn_append_cons_self_of_not_mem (h field List.mem_cons_self)]
    exact congrArg (field :: ·) (ih fun f hf => h f (List.mem_cons_of_mem field hf))

theorem fieldsFrom_joinFields (h : ∀ field ∈ fields, ' ' ∉ field) (path : List Char) :
    fieldsFrom fields.length (joinFields fields path) = path := by
  rw [fieldsFrom, splitOn_joinFields h, List.drop_left, List.intercalate_splitOn]

theorem not_mem_joinFields {mark : Char} (hmark : mark ≠ ' ') (h : ∀ field ∈ fields, mark ∉ field) {path : List Char}
    (hpath : mark ∉ path) : mark ∉ joinFields fields path := by
  induction fields with
  | nil => exact hpath
  | cons field fields ih =>
    rw [joinFields, List.foldr_cons, List.mem_append, List.mem_cons]
    rintro (hfield | hspace | hrest)
    · exact h field List.mem_cons_self hfield
    · exact hmark hspace
    · exact ih (fun f hf => h f (List.mem_cons_of_mem field hf)) hrest

theorem Change.letter_ne (change : Change) : change.letter ≠ ' ' ∧ change.letter ≠ NUL ∧ change.letter ≠ 'U' := by
  cases change <;> decide

theorem xyCode_letter (change : Change) : xyCode change.letter = change.code := by
  cases change <;> rfl

section

variable {n : ℕ} (x y : Change) (fields : Fields n)

theorem Fields.plain_letters (kind : List Char) (hkind : ' ' ∉ kind ∧ NUL ∉ kind) :
    ∀ field ∈ kind :: [x.letter, y.letter] :: fields.texts, ' ' ∉ field ∧ NUL ∉ field := by
  have hx := x.letter_ne
  have hy := y.letter_ne
  refine List.forall_mem_cons.2 ⟨hkind, List.forall_mem_cons.2 ⟨?_, fields.plain⟩⟩
  simp only [List.mem_cons, List.not_mem_nil, or_false, not_or]
  exact ⟨⟨hx.1.symm, hy.1.symm⟩, hx.2.1.symm, hy.2.1.symm⟩

theorem statusFromXY_joinFields (kind : List Char) (hkind : ' ' ∉ kind ∧ NUL ∉ kind) (path : List Char)
    (oldPath : Option (List Char)) :
    let record := joinFields (kind :: [x.letter, y.letter] :: fields.texts) path
    statusFromXY (xyField record) (fieldsFrom (n + 2) record) oldPath = ⟨path, oldPath, x.code, y.code, false⟩ := by
  intro record
  have hplain : ∀ field ∈ kind :: [x.letter, y.letter] :: fields.texts, ' ' ∉ field :=
    fun field hfield => (fields.plain_letters x y kind hkind field hfield).1
  have hletters : xyField record = [x.letter, y.letter] := by
    rw [xyField, splitOn_joinFields hplain]
    rfl
  have hpath : fieldsFrom (n + 2) record = path := by
    have hcount : n + 2 = (kind :: [x.letter, y.letter] :: fields.texts).length := by
      rw [List.length_cons, List.length_cons, fields.count]
    rw [hcount, fieldsFrom_joinFields hplain]
  have hx : (x.letter == 'U') = false := beq_eq_false_iff_ne.2 x.letter_ne.2.2
  have hy : (y.letter == 'U') = false := beq_eq_false_iff_ne.2 y.letter_ne.2.2
  rw [hletters, hpath, statusFromXY]
  simp only [List.getD_cons_zero, List.getD_cons_succ, xyCode_letter, hx, hy, Bool.or_false]

end

theorem readRecords_cons {record : List Char} (h : "2 ".toList.isPrefixOf record = false) (status : GitStatus)
    (rest : List (List Char)) : readRecords status (record :: rest) = readRecords (readRecord status record) rest := by
  rw [readRecords, if_neg (by rw [h]; decide)]

/-- **The records of an entry add its file**, and the records behind them are read on their own. -/
theorem readRecords_entry (status : GitStatus) (entry : StatusEntry) (rest : List (List Char)) :
    readRecords status (entry.records ++ rest) = readRecords (status.push entry.file) rest := by
  cases entry with
  | ordinary x y fields path =>
    have hfile := statusFromXY_joinFields x y fields ['1'] (by decide) path.1 none
    refine (readRecords_cons rfl status rest).trans ?_
    exact congrArg (fun file => readRecords (status.push file) rest) hfile
  | renamed x y fields path origPath =>
    have hfile := statusFromXY_joinFields x y fields ['2'] (by decide) path.1 (some origPath.1)
    have hkind : "2 ".toList.isPrefixOf (joinFields (['2'] :: [x.letter, y.letter] :: fields.texts) path.1) = true := rfl
    rw [StatusEntry.records, List.cons_append, List.singleton_append, readRecords, if_pos hkind]
    exact congrArg (fun file => readRecords (status.push file) rest) hfile
  | unmerged fields path =>
    have hplain : ∀ field ∈ ['u'] :: fields.texts, ' ' ∉ field :=
      List.forall_mem_cons.2 ⟨by decide, fun field hfield => (fields.plain field hfield).1⟩
    have hpath : fieldsFrom 10 (joinFields (['u'] :: fields.texts) path.1) = path.1 := by
      have hcount : 10 = (['u'] :: fields.texts).length := by rw [List.length_cons, fields.count]
      rw [hcount, fieldsFrom_joinFields hplain]
    refine (readRecords_cons rfl status rest).trans ?_
    exact congrArg (fun path => readRecords (status.push ⟨path, none, some .conflicted, some .conflicted, true⟩) rest) hpath
  | untracked | ignored => exact readRecords_cons rfl status rest

theorem readRecords_entries (status : GitStatus) (entries : List StatusEntry) :
    readRecords status (entries.flatMap StatusEntry.records ++ [[]])
      = { status with files := status.files ++ entries.map StatusEntry.file } := by
  induction entries generalizing status with
  | nil =>
    rw [List.map_nil, List.append_nil]
    rfl
  | cons entry entries ih =>
    rw [List.flatMap_cons, List.append_assoc, readRecords_entry, ih, List.map_cons, GitStatus.push]
    simp only [List.append_assoc, List.singleton_append]

theorem StatusEntry.nul_not_mem_records (entry : StatusEntry) : ∀ record ∈ entry.records, NUL ∉ record := by
  have hmark : ∀ {mark : Char}, NUL ≠ mark → ∀ path : GitPath, NUL ∉ mark :: ' ' :: path.1 :=
    fun hmark path => List.not_mem_cons_of_ne_of_not_mem hmark (List.not_mem_cons_of_ne_of_not_mem (by decide) path.2.2)
  cases entry with
  | ordinary x y fields path =>
    have hplain := fields.plain_letters x y ['1'] (by decide)
    exact List.forall_mem_singleton.2 (not_mem_joinFields (by decide) (fun f hf => (hplain f hf).2) path.2.2)
  | renamed x y fields path origPath =>
    have hplain := fields.plain_letters x y ['2'] (by decide)
    refine List.forall_mem_cons.2 ⟨?_, List.forall_mem_singleton.2 origPath.2.2⟩
    exact not_mem_joinFields (by decide) (fun f hf => (hplain f hf).2) path.2.2
  | unmerged fields path =>
    have hplain : ∀ field ∈ ['u'] :: fields.texts, NUL ∉ field :=
      List.forall_mem_cons.2 ⟨by decide, fun f hf => (fields.plain f hf).2⟩
    exact List.forall_mem_singleton.2 (not_mem_joinFields (by decide) hplain path.2.2)
  | untracked path => exact List.forall_mem_singleton.2 (hmark (by decide) path)
  | ignored path => exact List.forall_mem_singleton.2 (hmark (by decide) path)

/-! ## Numbers -/

section

variable (n : ℕ) (rest : List Char)

theorem isDigit_toDigits : ∀ c ∈ Nat.toDigits 10 n, c.isDigit = true :=
  fun _ hc => Nat.isDigit_of_mem_toDigits (by decide) (by decide) hc

theorem takeWhile_toDigits {c : Char} (h : c.isDigit = false) :
    (Nat.toDigits 10 n ++ c :: rest).takeWhile Char.isDigit = Nat.toDigits 10 n := by
  rw [List.takeWhile_append_of_pos (isDigit_toDigits n), List.takeWhile_cons_of_neg (by rw [h]; decide), List.append_nil]

theorem dropWhile_toDigits {c : Char} (h : c.isDigit = false) :
    (Nat.toDigits 10 n ++ c :: rest).dropWhile Char.isDigit = c :: rest := by
  rw [List.dropWhile_append_of_pos (isDigit_toDigits n), List.dropWhile_cons_of_neg (by rw [h]; decide)]

theorem nul_not_mem_toDigits : NUL ∉ Nat.toDigits 10 n :=
  fun hmem => absurd (isDigit_toDigits n NUL hmem) (by decide)

theorem readCount_toDigits : readCount (Nat.toDigits 10 n ++ '\t' :: rest) = some (Nat.toDigits 10 n, rest) := by
  have hhead : (Nat.toDigits 10 n ++ '\t' :: rest).head? ≠ some '-' := by
    intro hdash
    obtain ⟨c, digits, hdigits⟩ := List.exists_cons_of_ne_nil (Nat.toDigits_ne_nil (n := n) (b := 10))
    have hdigit := isDigit_toDigits n c (by rw [hdigits]; exact List.mem_cons_self)
    rw [hdigits, List.cons_append, List.head?_cons, Option.some.injEq] at hdash
    rw [hdash] at hdigit
    exact absurd hdigit (by decide)
  rw [readCount, if_neg hhead, takeWhile_toDigits n rest (by decide), List.drop_left]
  exact if_neg Nat.toDigits_ne_nil

end

theorem matchCounts_printed (ahead behind : ℕ) :
    matchCounts ('+' :: (Nat.toDigits 10 ahead ++ ' ' :: '-' :: Nat.toDigits 10 behind)) = some (ahead, behind) := by
  have hbehind : (Nat.toDigits 10 behind).takeWhile Char.isDigit = Nat.toDigits 10 behind :=
    List.takeWhile_eq_self_iff.2 (isDigit_toDigits behind)
  have hspace : ' '.isDigit = false := by decide
  have hspaces : isWhiteSpace ' ' = true ∧ ¬ isWhiteSpace '-' = true := by decide
  have hhere : matchCountsHere ('+' :: (Nat.toDigits 10 ahead ++ ' ' :: '-' :: Nat.toDigits 10 behind))
      = some (ahead, behind) := by
    rw [matchCountsHere]
    simp only [takeWhile_toDigits ahead _ hspace, dropWhile_toDigits ahead _ hspace, hbehind,
      List.dropWhile_cons_of_pos hspaces.1, List.dropWhile_cons_of_neg hspaces.2, List.takeWhile_cons_of_pos hspaces.1,
      Nat.toDigits_ne_nil, List.cons_ne_nil, or_self, if_false, Nat.ofDigitChars_ten_toDigits]
  rw [matchCounts, hhere, Option.some_or]

/-! ## The header -/

namespace BranchHeader

variable (header : BranchHeader)

theorem nul_not_mem_records : ∀ record ∈ header.records, NUL ∉ record := by
  have hmark : ∀ {mark value : List Char}, NUL ∉ mark → NUL ∉ value → NUL ∉ mark ++ value :=
    fun hmark hvalue hmem => (List.mem_append.1 hmem).elim hmark hvalue
  intro record hrecord
  simp only [records, List.mem_cons, List.mem_append, List.mem_map, Option.mem_toList] at hrecord
  obtain rfl | rfl | ⟨upstream, hupstream, rfl⟩ | ⟨counts, -, rfl⟩ := hrecord
  · exact hmark (by decide) header.noNul.1
  · apply hmark (by decide)
    cases hbranch : header.branch with
    | none => decide
    | some branch => exact header.noNul.2.1 branch hbranch
  · exact hmark (by decide) (header.noNul.2.2 upstream hupstream)
  · apply hmark (by decide)
    simp only [List.mem_cons, List.mem_append, not_or]
    exact ⟨by decide, nul_not_mem_toDigits _, by decide, by decide, nul_not_mem_toDigits _⟩

theorem readRecords_records (h : header.branch ≠ some "(detached)".toList) (rest : List (List Char)) :
    readRecords GitStatus.empty (header.records ++ rest) = readRecords header.status rest := by
  have hread : ∀ {record : List Char}, "2 ".toList.isPrefixOf record = false → ∀ status rest,
      readRecords status (record :: rest) = readRecords (readRecord status record) rest :=
    fun hkind status rest => readRecords_cons hkind status rest
  have hbranch : readRecord GitStatus.empty ("# branch.head ".toList ++ header.branch.getD "(detached)".toList)
      = { GitStatus.empty with head := header.branch, detached := header.branch.isNone } := by
    cases hname : header.branch with
    | none => rfl
    | some branch =>
      rw [hname] at h
      exact if_neg fun heq => h (congrArg some heq)
  have hcounts : ∀ (counts : ℕ × ℕ) (status : GitStatus),
      readRecord status (printCounts counts) = { status with ahead := counts.1, behind := counts.2 } := by
    intro counts status
    have hmatch : matchCounts ((printCounts counts).drop 12) = some (counts.1, counts.2) := matchCounts_printed _ _
    change (match matchCounts ((printCounts counts).drop 12) with
      | some (ahead, behind) => { status with ahead, behind }
      | none => status) = _
    rw [hmatch]
  have htail : ∀ status : GitStatus, status.ahead = 0 → status.behind = 0 →
      readRecords status (header.counts.toList.map printCounts ++ rest)
        = readRecords { status with ahead := header.status.ahead, behind := header.status.behind } rest := by
    intro status hahead hbehind
    unfold BranchHeader.status
    cases header.counts with
    | none =>
      obtain ⟨⟩ := status
      subst hahead hbehind
      rfl
    | some counts => exact (hread rfl status rest).trans (congrArg (readRecords · rest) (hcounts counts status))
  rw [records, List.cons_append, List.cons_append, List.append_assoc, hread rfl, hread rfl]
  change readRecords (readRecord GitStatus.empty _) _ = _
  rw [hbranch]
  cases hname : header.upstream with
  | none =>
    refine (htail _ rfl rfl).trans ?_
    rw [status, hname]
    rfl
  | some upstream =>
    refine (hread rfl _ _).trans ((htail _ rfl rfl).trans ?_)
    rw [status, hname]
    rfl

end BranchHeader

theorem parsePorcelainV2_records (header : BranchHeader) (h : header.branch ≠ some "(detached)".toList)
    (entries : List StatusEntry) :
    parsePorcelainV2 (terminated (header.records ++ entries.flatMap StatusEntry.records))
      = { header.status with files := entries.map StatusEntry.file } := by
  have hplain : ∀ record ∈ header.records ++ entries.flatMap StatusEntry.records, NUL ∉ record := by
    intro record hrecord
    obtain hrecord | hrecord := List.mem_append.1 hrecord
    · exact header.nul_not_mem_records record hrecord
    · obtain ⟨entry, -, hrecord⟩ := List.mem_flatMap.1 hrecord
      exact entry.nul_not_mem_records record hrecord
  rw [parsePorcelainV2, terminated, splitOn_terminated hplain, List.append_assoc, header.readRecords_records h, readRecords_entries]
  rfl

/-! ## `parseNumstatZ` -/

theorem matchNumstat_counts (file : NumstatFile) (path : List Char) :
    ∃ addStr delStr, matchNumstat (file.counts ++ path) = some (addStr, delStr, path) ∧
      ∀ oldPath newPath, numstatEntry addStr delStr oldPath newPath
        = ⟨file.entry.additions, file.entry.deletions, file.entry.binary, oldPath, newPath⟩ := by
  obtain ⟨lines, oldPath, newPath⟩ := file
  cases lines with
  | none => exact ⟨['-'], ['-'], rfl, fun _ _ => rfl⟩
  | some lines =>
    refine ⟨Nat.toDigits 10 lines.1, Nat.toDigits 10 lines.2, ?_, ?_⟩
    · simp only [NumstatFile.counts, List.append_assoc, List.cons_append, List.nil_append, matchNumstat, readCount_toDigits,
        Option.bind_some, Option.map_some]
    · intro oldPath newPath
      have hdash : (Nat.toDigits 10 lines.1 == ['-']) = false := by
        rw [beq_eq_false_iff_ne]
        intro heq
        exact absurd (isDigit_toDigits lines.1 '-' (by rw [heq]; exact List.mem_cons_self)) (by decide)
      simp only [numstatEntry, hdash, Bool.false_and, Bool.false_eq_true, if_false, Nat.ofDigitChars_ten_toDigits,
        NumstatFile.entry, Option.map_some, Option.getD_some, Option.isNone_some]

theorem readNumstat_records (file : NumstatFile) (rest : List (List Char)) :
    readNumstat (file.records ++ rest) = file.entry :: readNumstat rest := by
  cases hold : file.oldPath with
  | none =>
    obtain ⟨addStr, delStr, hmatch, hentry⟩ := matchNumstat_counts file file.newPath.1
    obtain ⟨c, path, hpath⟩ := List.exists_cons_of_ne_nil file.newPath.2.1
    have hrecords : file.records = [file.counts ++ file.newPath.1] := by rw [NumstatFile.records, hold]
    rw [hpath] at hmatch
    rw [hrecords, List.singleton_append, hpath, readNumstat, hmatch]
    dsimp only
    rw [hentry, ← hpath, NumstatFile.entry, hold]
    rfl
  | some oldPath =>
    obtain ⟨addStr, delStr, hmatch, hentry⟩ := matchNumstat_counts file []
    have hrecords : file.records = [file.counts, oldPath.1, file.newPath.1] := by rw [NumstatFile.records, hold]
    rw [List.append_nil] at hmatch
    rw [hrecords, List.cons_append, readNumstat, hmatch]
    dsimp only [List.cons_append, List.nil_append]
    rw [hentry, NumstatFile.entry, hold]
    rfl

theorem NumstatFile.nul_not_mem_records (file : NumstatFile) : ∀ record ∈ file.records, NUL ∉ record := by
  have hcounts : NUL ∉ file.counts := by
    unfold NumstatFile.counts
    cases file.lines with
    | none => decide
    | some lines =>
      simp only [List.mem_append, List.mem_cons, List.not_mem_nil, or_false, not_or]
      exact ⟨nul_not_mem_toDigits _, by decide, nul_not_mem_toDigits _, by decide⟩
  unfold NumstatFile.records
  cases file.oldPath with
  | none => simpa using ⟨hcounts, file.newPath.2.2⟩
  | some oldPath => simpa using ⟨hcounts, oldPath.2.2, file.newPath.2.2⟩

theorem parseNumstatZ_records (files : List NumstatFile) :
    parseNumstatZ (terminated (files.flatMap NumstatFile.records)) = files.map NumstatFile.entry := by
  have hplain : ∀ record ∈ files.flatMap NumstatFile.records, NUL ∉ record := by
    intro record hrecord
    obtain ⟨file, -, hrecord⟩ := List.mem_flatMap.1 hrecord
    exact file.nul_not_mem_records record hrecord
  rw [parseNumstatZ, terminated, splitOn_terminated hplain]
  clear hplain
  induction files with
  | nil => rfl
  | cons file files ih => rw [List.flatMap_cons, List.append_assoc, readNumstat_records, ih, List.map_cons]

/-! ## The claim -/

def headerOn (branch : List Char) (h : NUL ∉ branch) : BranchHeader where
  oid := "(initial)".toList
  branch := some branch
  upstream := none
  counts := none
  noNul := ⟨by decide, by rintro _ ⟨⟩; exact h, by rintro _ ⟨⟩⟩

end OpenGeni.Runtime
