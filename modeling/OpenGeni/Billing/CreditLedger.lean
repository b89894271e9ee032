/-
The credit ledger of an account and the two functions that write it.

`applyCreditLedgerEntry` and `applyCreditDebitUpToBalance` each run in one transaction at READ
COMMITTED. The idempotency key is unique in the table: an insert waits for an open transaction
that has inserted the key, and does nothing once the key is there. Only the debit takes the
advisory lock of the account; it reads the balance under it, and what it debits and returns is
the lesser of the request and of that balance.

The rows stand in the order of their commits, so the balances that the account has had are the
sums over the first rows. Nothing ties what a debit returns to what is recorded: a replay of its
key reads the balance again, and an entry that takes no lock can lower the balance between the
read and the insert.
-/
import OpenGeni.Lib.Transactions

namespace OpenGeni.Billing

open OpenGeni.Lib

/-! ## The rows -/

structure DebitMetadata where
  requestedAmountMicros : ℤ
  debitedMicros : ℤ
deriving DecidableEq

structure CreditLedgerEntry (K : Type*) where
  idempotencyKey : K
  amountMicros : ℤ
  debit : Option DebitMetadata
deriving DecidableEq

variable {K : Type*}

/-- `coalesce(sum(amount_micros), 0)`. -/
def getBillingBalance (rows : List (CreditLedgerEntry K)) : ℤ := (rows.map (·.amountMicros)).sum

@[simp] theorem getBillingBalance_nil : getBillingBalance ([] : List (CreditLedgerEntry K)) = 0 := rfl

@[simp] theorem getBillingBalance_cons (row : CreditLedgerEntry K) (rows : List (CreditLedgerEntry K)) :
    getBillingBalance (row :: rows) = row.amountMicros + getBillingBalance rows := rfl

theorem getBillingBalance_append (rows rows' : List (CreditLedgerEntry K)) :
    getBillingBalance (rows ++ rows') = getBillingBalance rows + getBillingBalance rows' := by
  unfold getBillingBalance
  rw [List.map_append, List.sum_append]

def keysOf (rows : List (CreditLedgerEntry K)) : List K := rows.map (·.idempotencyKey)

@[simp] theorem keysOf_append (rows rows' : List (CreditLedgerEntry K)) :
    keysOf (rows ++ rows') = keysOf rows ++ keysOf rows' := List.map_append

/-! ## The transactions -/

inductive CreditCall (K : Type*)
  | applyCreditLedgerEntry (idempotencyKey : K) (amountMicros : ℤ)
  | applyCreditDebitUpToBalance (idempotencyKey : K) (requestedAmountMicros : ℤ)

/-- What a call has answered. The balance that both functions return as well is left out. -/
inductive CreditAnswer (K : Type*)
  | entered (idempotencyKey : K)
  | debited (idempotencyKey : K) (debitedMicros : ℤ)
deriving DecidableEq

structure CreditLedger (K : Type*) where
  rows : List (CreditLedgerEntry K)
  answers : List (CreditAnswer K)

def CreditLedger.empty : CreditLedger K := { rows := [], answers := [] }

inductive CreditTxn (K : Type*)
  | entryBegun (key : K) (amount : ℤ)
  | entryInserted (key : K) (row : Option (CreditLedgerEntry K))
  | debitBegun (key : K) (requested : ℤ)
  /-- Nothing was requested: it returns before it takes the lock. -/
  | debitSkipped (key : K) (requested : ℤ)
  | debitLocked (key : K) (requested : ℤ)
  | debitRead (key : K) (requested before : ℤ)
  | debitInserted (key : K) (requested before : ℤ) (row : Option (CreditLedgerEntry K))

/-- `Math.min(input.requestedAmountMicros, Math.max(0, before.balanceMicros))`. -/
def debitedMicros (requested before : ℤ) : ℤ := min requested (max 0 before)

namespace CreditTxn

def start : CreditCall K → CreditTxn K
  | .applyCreditLedgerEntry key amount => .entryBegun key amount
  | .applyCreditDebitUpToBalance key requested => .debitBegun key requested

def holdsLock : CreditTxn K → Bool
  | .debitLocked _ _ => true
  | .debitRead _ _ _ => true
  | .debitInserted _ _ _ _ => true
  | _ => false

def inserted : CreditTxn K → Option (CreditLedgerEntry K)
  | .entryInserted _ row => row
  | .debitInserted _ _ _ row => row
  | _ => none

def answer : CreditTxn K → Option (CreditAnswer K)
  | .entryInserted key _ => some (.entered key)
  | .debitSkipped key _ => some (.debited key 0)
  | .debitInserted key requested before _ => some (.debited key (debitedMicros requested before))
  | _ => none

variable [DecidableEq K]

/-- `insert .. on conflict do nothing`: the row, unless its key is there. -/
def insert (d : CreditLedger K) (others : List (CreditTxn K)) (row : CreditLedgerEntry K) :
    Option (Option (CreditLedgerEntry K)) :=
  if others.any fun y => y.inserted.any fun r => r.idempotencyKey = row.idempotencyKey then
    none
  else
    some (if row.idempotencyKey ∈ keysOf d.rows then none else some row)

def exec (d : CreditLedger K) (others : List (CreditTxn K)) : CreditTxn K → Option (CreditTxn K)
  | .entryBegun key amount =>
    (insert d others { idempotencyKey := key, amountMicros := amount, debit := none }).map (.entryInserted key)
  | .debitBegun key requested =>
    if requested ≤ 0 then
      some (.debitSkipped key requested)
    else if others.any holdsLock then
      none
    else
      some (.debitLocked key requested)
  | .debitLocked key requested => some (.debitRead key requested (getBillingBalance d.rows))
  | .debitRead key requested before =>
    let debited := debitedMicros requested before
    if 0 < debited then
      (insert d others
          { idempotencyKey := key, amountMicros := -debited
            debit := some { requestedAmountMicros := requested, debitedMicros := debited } }).map
        (.debitInserted key requested before)
    else
      some (.debitInserted key requested before none)
  | .entryInserted _ _ => none
  | .debitSkipped _ _ => none
  | .debitInserted _ _ _ _ => none

def commit (d : CreditLedger K) (x : CreditTxn K) : CreditLedger K :=
  { rows := d.rows ++ x.inserted.toList, answers := d.answers ++ x.answer.toList }

end CreditTxn

def creditWriters [DecidableEq K] : Transactions (CreditCall K) (CreditLedger K) (CreditTxn K) where
  start := .start
  exec := CreditTxn.exec
  finished x := x.answer.isSome
  commit := CreditTxn.commit
  observe _ y := y

/-! ## What the ledger is for -/

section

variable [DecidableEq K]

def recorded (rows : List (CreditLedgerEntry K)) (key : K) : ℤ :=
  -getBillingBalance (rows.filter fun row => row.idempotencyKey = key)

def NeverOverdrawn (rows : List (CreditLedgerEntry K)) : Prop :=
  ∀ n row, rows[n]? = some row → row.debit.isSome → 0 ≤ getBillingBalance (rows.take (n + 1))

structure CreditLedger.Exact (d : CreditLedger K) : Prop where
  keys : (keysOf d.rows).Nodup
  entered : ∀ key, .entered key ∈ d.answers → key ∈ keysOf d.rows
  covered : NeverOverdrawn d.rows
  /-- What a debit has returned is what is recorded under its key. -/
  returned : ∀ key debited, .debited key debited ∈ d.answers → debited = recorded d.rows key
  /-- The amounts returned for distinct keys add up to what is recorded under them. -/
  total : ∀ returns : List (K × ℤ), (∀ r ∈ returns, .debited r.1 r.2 ∈ d.answers) →
    (returns.map Prod.fst).Nodup → (returns.map Prod.snd).sum =
      -getBillingBalance (d.rows.filter fun row => row.idempotencyKey ∈ returns.map Prod.fst)

/-! ## When it does not drift -/

/-- What a transaction has to find when it commits: a row, no debit that has answered for its key; a debit, a
balance no lower than it has read or than the request; a debit that inserts no row, what it returns recorded. -/
def CreditTxn.Settles (d : CreditLedger K) : CreditTxn K → Prop
  | .entryInserted key (some row) => row.amountMicros = 0 ∨ ∀ debited, .debited key debited ∉ d.answers
  | .debitInserted key requested before (some _) =>
    (∀ debited, .debited key debited ∉ d.answers) ∧
      (requested ≤ getBillingBalance d.rows ∨ before ≤ getBillingBalance d.rows)
  | .debitInserted key requested before none => recorded d.rows key = debitedMicros requested before
  | .debitSkipped key _ => recorded d.rows key = 0
  | _ => True

def Settles (s : Transactions.State (CreditLedger K) (CreditTxn K)) : Transactions.Event (CreditCall K) → Prop
  | .commit i => ∀ x, s.opened.get i = some x → x.Settles s.data
  | _ => True

/-! ## Sums over the rows of a key -/

variable {rows : List (CreditLedgerEntry K)} {row : CreditLedgerEntry K} {key : K}

omit [DecidableEq K] in
theorem balance_filter_or {p q : CreditLedgerEntry K → Bool} (h : ∀ row ∈ rows, ¬ (p row ∧ q row)) :
    getBillingBalance (rows.filter fun row => p row || q row) =
      getBillingBalance (rows.filter p) + getBillingBalance (rows.filter q) := by
  induction rows with
  | nil => rfl
  | cons row rows ih =>
    have hrow := h row List.mem_cons_self
    have hrest := ih fun r hr => h r (List.mem_cons_of_mem row hr)
    by_cases hp : p row
    · have hq : ¬ q row := fun hq => hrow ⟨hp, hq⟩
      rw [List.filter_cons_of_pos (by simp [hp]), List.filter_cons_of_pos hp, List.filter_cons_of_neg hq]
      rw [getBillingBalance_cons, getBillingBalance_cons, hrest]
      omega
    · by_cases hq : q row
      · rw [List.filter_cons_of_pos (by simp [hq]), List.filter_cons_of_neg hp, List.filter_cons_of_pos hq]
        rw [getBillingBalance_cons, getBillingBalance_cons, hrest]
        omega
      · rw [List.filter_cons_of_neg (by simp [hp, hq]), List.filter_cons_of_neg hp, List.filter_cons_of_neg hq]
        exact hrest

theorem recorded_of_notMem (h : key ∉ keysOf rows) : recorded rows key = 0 := by
  have hnone : (rows.filter fun row => row.idempotencyKey = key) = [] := by
    rw [List.filter_eq_nil_iff]
    intro row hrow heq
    exact h (of_decide_eq_true heq ▸ List.mem_map_of_mem hrow)
  unfold recorded
  rw [hnone]
  rfl

theorem recorded_append_of_ne (h : row.idempotencyKey ≠ key) :
    recorded (rows ++ [row]) key = recorded rows key := by
  unfold recorded
  rw [List.filter_append, List.filter_cons_of_neg (by simpa using h), List.filter_nil, List.append_nil]

theorem recorded_append_self (h : row.idempotencyKey ∉ keysOf rows) :
    recorded (rows ++ [row]) row.idempotencyKey = -row.amountMicros := by
  have hrest := recorded_of_notMem h
  unfold recorded at hrest ⊢
  rw [List.filter_append, getBillingBalance_append, List.filter_cons_of_pos (by simp), List.filter_nil,
    getBillingBalance_cons, getBillingBalance_nil]
  omega

theorem sum_recorded {returns : List (K × ℤ)} (hrec : ∀ r ∈ returns, r.2 = recorded rows r.1)
    (hkeys : (returns.map Prod.fst).Nodup) :
    (returns.map Prod.snd).sum =
      -getBillingBalance (rows.filter fun row => row.idempotencyKey ∈ returns.map Prod.fst) := by
  induction returns with
  | nil =>
    rw [List.filter_eq_nil_iff.2 (by simp)]
    rfl
  | cons r returns ih =>
    rw [List.map_cons, List.nodup_cons] at hkeys
    have hrest := ih (fun r' hr' => hrec r' (List.mem_cons_of_mem r hr')) hkeys.2
    have hsplit : (rows.filter fun row => row.idempotencyKey ∈ (r :: returns).map Prod.fst) =
        rows.filter fun row => decide (row.idempotencyKey = r.1) ||
          decide (row.idempotencyKey ∈ returns.map Prod.fst) := by
      congr 1
      funext row
      rw [List.map_cons, ← Bool.decide_or]
      exact decide_eq_decide.2 List.mem_cons
    have hdisjoint : ∀ row ∈ rows, ¬ (decide (row.idempotencyKey = r.1) = true ∧
        decide (row.idempotencyKey ∈ returns.map Prod.fst) = true) := by
      rintro row - ⟨heq, hmem⟩
      exact hkeys.1 (of_decide_eq_true heq ▸ of_decide_eq_true hmem)
    rw [hsplit, balance_filter_or hdisjoint, List.map_cons, List.sum_cons, hrest, hrec r List.mem_cons_self]
    unfold recorded
    omega

/-! ## What a commit does to the ledger -/

def CreditAnswer.Holds (rows : List (CreditLedgerEntry K)) : CreditAnswer K → Prop
  | .entered key => key ∈ keysOf rows
  | .debited key amount => amount = recorded rows key

@[simp] theorem CreditAnswer.holds_entered : (CreditAnswer.entered key).Holds rows ↔ key ∈ keysOf rows := Iff.rfl

@[simp] theorem CreditAnswer.holds_debited {amount : ℤ} :
    (CreditAnswer.debited key amount).Holds rows ↔ amount = recorded rows key := Iff.rfl

variable {d : CreditLedger K} {a : CreditAnswer K} {x : CreditTxn K}

theorem CreditLedger.Exact.holds (h : d.Exact) : ∀ a ∈ d.answers, a.Holds d.rows := by
  intro a ha
  cases a with
  | entered key => exact h.entered key ha
  | debited key debited => exact h.returned key debited ha

theorem CreditLedger.Exact.of_holds (hkeys : (keysOf d.rows).Nodup) (hcovered : NeverOverdrawn d.rows)
    (hanswers : ∀ a ∈ d.answers, a.Holds d.rows) : d.Exact where
  keys := hkeys
  entered _ ha := hanswers _ ha
  covered := hcovered
  returned _ _ ha := hanswers _ ha
  total _ hreturns hnodup := sum_recorded (fun r hr => hanswers _ (hreturns r hr)) hnodup

omit [DecidableEq K] in
theorem NeverOverdrawn.append (h : NeverOverdrawn rows)
    (hrow : row.debit.isSome → 0 ≤ getBillingBalance rows + row.amountMicros) :
    NeverOverdrawn (rows ++ [row]) := by
  intro n r hr hdebit
  by_cases hn : n < rows.length
  · rw [List.getElem?_append_left hn] at hr
    rw [List.take_append_of_le_length hn]
    exact h n r hr hdebit
  · rw [List.getElem?_append_right (by omega)] at hr
    obtain rfl : row = r := by
      rw [List.getElem?_singleton] at hr
      exact (Option.ite_none_right_eq_some.1 hr).2 |> Option.some.inj
    rw [List.take_of_length_le (by simp; omega), getBillingBalance_append, getBillingBalance_cons,
      getBillingBalance_nil, add_zero]
    exact hrow hdebit

omit [DecidableEq K] in
theorem NeverOverdrawn.last (h : NeverOverdrawn (rows ++ [row])) (hdebit : row.debit.isSome) :
    0 ≤ getBillingBalance rows + row.amountMicros := by
  have hlast := h rows.length row (by simp) hdebit
  rwa [List.take_of_length_le (by simp), getBillingBalance_append, getBillingBalance_cons,
    getBillingBalance_nil, add_zero] at hlast

theorem CreditAnswer.Holds.append (hfresh : row.idempotencyKey ∉ keysOf rows) (h : a.Holds rows)
    (hrow : row.amountMicros = 0 ∨ ∀ debited, a ≠ .debited row.idempotencyKey debited) :
    a.Holds (rows ++ [row]) := by
  cases a with
  | entered key =>
    rw [CreditAnswer.holds_entered] at h ⊢
    rw [keysOf_append]
    exact List.mem_append_left _ h
  | debited key debited =>
    rw [CreditAnswer.holds_debited] at h ⊢
    by_cases hkey : row.idempotencyKey = key
    · subst hkey
      obtain hzero | hne := hrow
      · rw [recorded_append_self hfresh, h, recorded_of_notMem hfresh]
        omega
      · exact absurd rfl (hne debited)
    · rw [recorded_append_of_ne hkey]
      exact h

/-! ## What an open transaction knows -/

def debitRow (key : K) (requested before : ℤ) : CreditLedgerEntry K where
  idempotencyKey := key
  amountMicros := -debitedMicros requested before
  debit := some { requestedAmountMicros := requested, debitedMicros := debitedMicros requested before }

omit [DecidableEq K] in
@[simp] theorem debitRow_amount {requested before : ℤ} :
    (debitRow key requested before).amountMicros = -debitedMicros requested before := rfl

/-- An inserted row is new, and one that was not inserted is there. -/
def CreditTxn.Knows (d : CreditLedger K) : CreditTxn K → Prop
  | .entryInserted key none => key ∈ keysOf d.rows
  | .entryInserted key (some row) => row.idempotencyKey = key ∧ row.debit = none ∧ key ∉ keysOf d.rows
  | .debitInserted key requested before (some row) =>
    row = debitRow key requested before ∧ 0 < debitedMicros requested before ∧ key ∉ keysOf d.rows
  | _ => True

def CreditTxn.Apart (x y : CreditTxn K) : Prop :=
  ∀ r r', x.inserted = some r → y.inserted = some r' → r.idempotencyKey ≠ r'.idempotencyKey

variable {others : List (CreditTxn K)} {x' y : CreditTxn K} {r : Option (CreditLedgerEntry K)}

theorem CreditTxn.insert_cases (h : CreditTxn.insert d others row = some r) :
    (∀ y ∈ others, ∀ r', y.inserted = some r' → row.idempotencyKey ≠ r'.idempotencyKey) ∧
      ((r = none ∧ row.idempotencyKey ∈ keysOf d.rows) ∨ (r = some row ∧ row.idempotencyKey ∉ keysOf d.rows)) := by
  obtain ⟨hfree, hr⟩ := Option.ite_none_left_eq_some.1 h
  constructor
  · intro y hy r' hr' heq
    apply hfree
    rw [List.any_eq_true]
    exact ⟨y, hy, by rw [hr']; simpa using heq.symm⟩
  · by_cases hmem : row.idempotencyKey ∈ keysOf d.rows
    · rw [if_pos hmem] at hr
      exact .inl ⟨(Option.some.inj hr).symm, hmem⟩
    · rw [if_neg hmem] at hr
      exact .inr ⟨(Option.some.inj hr).symm, hmem⟩

theorem CreditTxn.exec_knows (h : CreditTxn.exec d others x = some x') :
    x'.Knows d ∧ ∀ y ∈ others, x'.Apart y := by
  cases x with
  | entryBegun key amount =>
    obtain ⟨r, hinsert, rfl⟩ := Option.map_eq_some_iff.1 h
    obtain ⟨hfree, ⟨rfl, hmem⟩ | ⟨rfl, hnew⟩⟩ := CreditTxn.insert_cases hinsert
    · exact ⟨hmem, fun y _ r r' hr => by cases hr⟩
    · refine ⟨⟨rfl, rfl, hnew⟩, fun y hy r r' hr hr' => ?_⟩
      cases hr
      exact hfree y hy r' hr'
  | debitBegun key requested =>
    simp only [CreditTxn.exec] at h
    split_ifs at h
    · cases h
      exact ⟨trivial, fun y _ r r' hr => by cases hr⟩
    · cases h
      exact ⟨trivial, fun y _ r r' hr => by cases hr⟩
  | debitLocked key requested =>
    cases h
    exact ⟨trivial, fun y _ r r' hr => by cases hr⟩
  | debitRead key requested before =>
    simp only [CreditTxn.exec] at h
    by_cases hpos : 0 < debitedMicros requested before
    · rw [if_pos hpos] at h
      obtain ⟨r, hinsert, rfl⟩ := Option.map_eq_some_iff.1 h
      obtain ⟨hfree, ⟨rfl, hmem⟩ | ⟨rfl, hnew⟩⟩ := CreditTxn.insert_cases hinsert
      · exact ⟨trivial, fun y _ r r' hr => by cases hr⟩
      · refine ⟨⟨rfl, hpos, hnew⟩, fun y hy r r' hr hr' => ?_⟩
        cases hr
        exact hfree y hy r' hr'
    · rw [if_neg hpos] at h
      cases h
      exact ⟨trivial, fun y _ r r' hr => by cases hr⟩
  | _ => cases h

omit [DecidableEq K] in
theorem CreditTxn.Knows.commit (hapart : x.Apart y) (h : y.Knows d) : y.Knows (x.commit d) := by
  -- a key that is not there was not inserted by the other either
  have hnew : ∀ r, y.inserted = some r → r.idempotencyKey ∉ keysOf d.rows →
      r.idempotencyKey ∉ keysOf (x.commit d).rows := by
    intro r hr hnew hmem
    unfold CreditTxn.commit at hmem
    rw [keysOf_append] at hmem
    obtain hmem | hmem := List.mem_append.1 hmem
    · exact hnew hmem
    · obtain ⟨r', hr', heq⟩ := List.mem_map.1 hmem
      exact hapart r' r (Option.mem_toList.1 hr') hr heq
  cases y with
  | entryInserted key row =>
    cases row with
    | none =>
      unfold CreditTxn.Knows CreditTxn.commit at *
      rw [keysOf_append]
      exact List.mem_append_left _ h
    | some row =>
      obtain ⟨rfl, hdebit, hkey⟩ := h
      exact ⟨rfl, hdebit, hnew row rfl hkey⟩
  | debitInserted key requested before row =>
    cases row with
    | none => trivial
    | some row =>
      obtain ⟨rfl, hpos, hkey⟩ := h
      exact ⟨rfl, hpos, hnew _ rfl hkey⟩
  | _ => trivial

/-! ## The commit -/

theorem debitedMicros_le_iff {requested before balance : ℤ} (hpos : 0 < debitedMicros requested before) :
    debitedMicros requested before ≤ balance ↔ requested ≤ balance ∨ before ≤ balance := by
  unfold debitedMicros at *
  omega

theorem exact_append_iff (h : d.Exact) (hnew : row.idempotencyKey ∉ keysOf d.rows) :
    (CreditLedger.mk (d.rows ++ [row]) (d.answers ++ [a])).Exact ↔
      (row.amountMicros = 0 ∨ ∀ debited, .debited row.idempotencyKey debited ∉ d.answers) ∧
        (row.debit.isSome → 0 ≤ getBillingBalance d.rows + row.amountMicros) ∧ a.Holds (d.rows ++ [row]) := by
  constructor
  · intro hexact
    refine ⟨?_, fun hdebit => hexact.covered.last hdebit, hexact.holds a (by simp)⟩
    by_cases hzero : row.amountMicros = 0
    · exact .inl hzero
    · refine .inr fun debited hmem => hzero ?_
      have hbefore : debited = recorded d.rows row.idempotencyKey := h.returned _ _ hmem
      have hafter : debited = recorded (d.rows ++ [row]) row.idempotencyKey :=
        hexact.returned _ _ (List.mem_append_left _ hmem)
      rw [recorded_of_notMem hnew] at hbefore
      rw [recorded_append_self hnew] at hafter
      omega
  · rintro ⟨hanswers, hbalance, ha⟩
    refine .of_holds ?_ (h.covered.append hbalance) ?_
    · have hmem : row.idempotencyKey ∉ keysOf d.rows := hnew
      simpa [List.nodup_append, keysOf] using ⟨h.keys, fun r hr heq => hmem (heq ▸ List.mem_map_of_mem hr)⟩
    · intro b hb
      obtain hb | hb := List.mem_append.1 hb
      · refine (h.holds b hb).append hnew (hanswers.imp id fun hnone debited heq => ?_)
        exact hnone debited (heq ▸ hb)
      · obtain rfl := List.mem_singleton.1 hb
        exact ha

theorem exact_answer_iff (h : d.Exact) : (CreditLedger.mk d.rows (d.answers ++ [a])).Exact ↔ a.Holds d.rows := by
  constructor
  · exact fun hexact => hexact.holds a (by simp)
  · intro ha
    refine .of_holds h.keys h.covered fun b hb => ?_
    obtain hb | hb := List.mem_append.1 hb
    · exact h.holds b hb
    · obtain rfl := List.mem_singleton.1 hb
      exact ha

/-- **The commit.** It leaves the ledger exact if and only if it settles. -/
theorem CreditTxn.commit_exact_iff (h : d.Exact) (hknows : x.Knows d) (hfin : x.answer.isSome) :
    (x.commit d).Exact ↔ x.Settles d := by
  cases x with
  | entryInserted key row =>
    cases row with
    | none =>
      have hd : (CreditTxn.entryInserted key none).commit d =
          CreditLedger.mk d.rows (d.answers ++ [.entered key]) := by
        simp [CreditTxn.commit, CreditTxn.inserted, CreditTxn.answer]
      rw [hd, exact_answer_iff h]
      exact iff_of_true hknows trivial
    | some row =>
      obtain ⟨rfl, hdebit, hnew⟩ := hknows
      refine (exact_append_iff h hnew).trans ?_
      have hholds : CreditAnswer.Holds (d.rows ++ [row]) (.entered row.idempotencyKey) := by
        simp [keysOf]
      simp only [hdebit, Option.isSome_none, Bool.false_eq_true, false_implies, hholds, and_true]
      rfl
  | debitInserted key requested before row =>
    cases row with
    | none =>
      have hd : (CreditTxn.debitInserted key requested before none).commit d =
          CreditLedger.mk d.rows (d.answers ++ [.debited key (debitedMicros requested before)]) := by
        simp [CreditTxn.commit, CreditTxn.inserted, CreditTxn.answer]
      rw [hd, exact_answer_iff h]
      exact eq_comm
    | some row =>
      obtain ⟨rfl, hpos, hnew⟩ := hknows
      refine (exact_append_iff h hnew).trans ?_
      have hholds : CreditAnswer.Holds (d.rows ++ [debitRow key requested before])
          (.debited key (debitedMicros requested before)) := by
        have hself : recorded (d.rows ++ [debitRow key requested before]) key =
            -(-debitedMicros requested before) := recorded_append_self hnew
        rw [CreditAnswer.holds_debited, hself, neg_neg]
      have hamount : (debitRow key requested before).amountMicros ≠ 0 := by
        rw [debitRow_amount]
        omega
      have hbalance : (0 ≤ getBillingBalance d.rows + (debitRow key requested before).amountMicros) ↔
          (requested ≤ getBillingBalance d.rows ∨ before ≤ getBillingBalance d.rows) := by
        rw [← debitedMicros_le_iff hpos, debitRow_amount]
        omega
      have hdebit : (debitRow key requested before).debit.isSome := rfl
      simp only [hamount, false_or, hdebit, true_implies, hbalance, hholds, and_true]
      rfl
  | debitSkipped key requested =>
    have hd : (CreditTxn.debitSkipped key requested).commit d =
        CreditLedger.mk d.rows (d.answers ++ [.debited key 0]) := by
      simp [CreditTxn.commit, CreditTxn.inserted, CreditTxn.answer]
    rw [hd, exact_answer_iff h]
    exact eq_comm
  | _ => cases hfin

/-! ## Every interleaving -/

abbrev CreditLedger.Safe (s : Transactions.State (CreditLedger K) (CreditTxn K)) : Prop :=
  Transactions.Safe CreditLedger.Exact CreditTxn.Knows CreditTxn.Apart s

theorem creditWriters_sound :
    Transactions.Sound (creditWriters (K := K)) CreditLedger.Exact CreditTxn.Knows CreditTxn.Apart Settles where
  symm x y h r r' hr hr' := (h r' r hr' hr).symm
  start d op _ := by cases op <;> trivial
  start_apart op y r r' hr := by cases op <;> cases hr
  exec s i x x' _ _ _ _ _ hexec := CreditTxn.exec_knows hexec
  commit s i x hx hok hgood hinv hfin := (CreditTxn.commit_exact_iff hgood hinv hfin).2 (hok x hx)
  commit_other s i x y _ _ _ _ _ _ hapart hinv := hinv.commit hapart
  observe_apart _ _ _ h := h

theorem CreditLedger.empty_exact : (CreditLedger.empty (K := K)).Exact :=
  .of_holds List.nodup_nil (fun n row hr => by simp [CreditLedger.empty] at hr) (List.forall_mem_nil _)

end

/-! ## Runs that drift -/

/-- The events of one call that runs alone: it starts, executes `n` statements and commits. -/
def whole (i : ℕ) (call : CreditCall ℕ) (n : ℕ) : List (Transactions.Event (CreditCall ℕ)) :=
  .start i call :: List.replicate n (.exec i) ++ [.commit i]

def replayedDebit : List (Transactions.Event (CreditCall ℕ)) :=
  whole 0 (.applyCreditLedgerEntry 0 10) 1 ++ whole 1 (.applyCreditDebitUpToBalance 1 8) 3 ++
    whole 2 (.applyCreditDebitUpToBalance 1 8) 3

def refundBetween : List (Transactions.Event (CreditCall ℕ)) := whole 0 (.applyCreditLedgerEntry 0 10) 1 ++
    [.start 1 (.applyCreditDebitUpToBalance 1 10), .exec 1, .exec 1] ++
      whole 2 (.applyCreditLedgerEntry 2 (-10)) 1 ++ [.exec 1, .commit 1]

end OpenGeni.Billing
