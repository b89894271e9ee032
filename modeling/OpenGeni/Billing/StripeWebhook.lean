/-
The events of a Stripe payment and the rows of the ledger they make.

The webhook records an event, handles it unless it was processed, and marks it processed; where
something fails it answers 500 and the event is delivered again. Events come in any order, more
than once, and two at a time. A handler inserts rows under keys that are made of the ids of the
objects, and an insert does nothing where the key is there. The debit of a refund looks its own key
up before. The release of a dispute looks for the row of the hold and is done without it where
there is none; the event is then marked processed, and a hold that comes later stays.
-/
import OpenGeni.Billing.CreditLedger

namespace OpenGeni.Billing

open OpenGeni.Lib

/-! ## The objects of the events -/

structure Metadata where
  opengeniAccountId : Option String
  /-- `Number(...)` of the text, if it is a safe integer. -/
  opengeniCreditMicros : Option ℤ
  opengeniCreditIdempotencyKey : Option String
  others : List String
deriving DecidableEq

structure CheckoutSession where
  mode : String
  paymentStatus : String
  metadata : Metadata
deriving DecidableEq

structure Refund where
  id : String
  amount : ℕ
  status : Option String
  metadata : Metadata
  paymentIntent : Option String
deriving DecidableEq

structure Dispute where
  id : String
  amount : ℕ
  status : String
  metadata : Metadata
  paymentIntent : Option String
  charge : Option String
deriving DecidableEq

structure Charge where
  metadata : Metadata
  paymentIntent : Option String

structure StripeObjects where
  paymentIntents : String → Metadata
  charges : String → Charge

inductive EventData
  | checkoutSessionCompleted (session : CheckoutSession)
  | chargeRefunded (refunds : List Refund)
  | refundCreated (refund : Refund)
  | refundUpdated (refund : Refund)
  | refundFailed (refund : Refund)
  | disputeCreated (dispute : Dispute)
  | disputeFundsWithdrawn (dispute : Dispute)
  | disputeClosed (dispute : Dispute)
  | disputeFundsReinstated (dispute : Dispute)
deriving DecidableEq

structure StripeEvent where
  id : String
  data : EventData
deriving DecidableEq

/-! ## The metadata -/

namespace Metadata

def isEmpty (m : Metadata) : Bool :=
  m.opengeniAccountId.isNone && m.opengeniCreditMicros.isNone && m.opengeniCreditIdempotencyKey.isNone && m.others.isEmpty

def accountId (m : Metadata) : Option String := m.opengeniAccountId.filter (· ≠ "")

end Metadata

structure CreditMetadata where
  accountId : String
  amountMicros : ℤ
  idempotencyKey : String

/-- `none` where it throws. -/
def creditMetadata (metadata : Metadata) : Option CreditMetadata :=
  match metadata.accountId, metadata.opengeniCreditMicros, metadata.opengeniCreditIdempotencyKey.filter (· ≠ "") with
  | some accountId, some amountMicros, some idempotencyKey =>
    if amountMicros ≤ 0 then none else some { accountId, amountMicros, idempotencyKey }
  | _, _, _ => none

def paymentIntentId (value : Option String) : Option String := value.filter (· ≠ "")

def metadataForRefund (stripe : StripeObjects) (refund : Refund) : Option Metadata :=
  if refund.metadata.isEmpty = false then
    some refund.metadata
  else
    (paymentIntentId refund.paymentIntent).map stripe.paymentIntents

def metadataForDispute (stripe : StripeObjects) (dispute : Dispute) : Option Metadata :=
  if dispute.metadata.isEmpty = false then
    some dispute.metadata
  else
    match paymentIntentId dispute.paymentIntent, dispute.charge.filter (· ≠ "") with
    | some paymentIntent, _ => some (stripe.paymentIntents paymentIntent)
    | none, none => none
    | none, some chargeId =>
      match paymentIntentId (stripe.charges chargeId).paymentIntent with
      | some chargePaymentIntent => some (stripe.paymentIntents chargePaymentIntent)
      | none => some (stripe.charges chargeId).metadata

def centsToMicros (cents : ℕ) : ℤ := cents * 10000

/-! ## The handlers -/

structure LedgerRow where
  accountId : String
  entry : CreditLedgerEntry String
deriving DecidableEq

/-- The row of an entry. Only debits up to the balance have metadata that is read. -/
def LedgerRow.of (accountId idempotencyKey : String) (amountMicros : ℤ) : LedgerRow :=
  { accountId, entry := { idempotencyKey, amountMicros, debit := none } }

def LedgerRow.key (row : LedgerRow) : String := row.entry.idempotencyKey

def hasCreditLedgerEntry (rows : List LedgerRow) (accountId idempotencyKey : String) : Bool :=
  rows.any fun row => row.accountId = accountId ∧ row.key = idempotencyKey

/-- The insert of `applyCreditLedgerEntry`, with its commit. -/
def insertEntry (rows : List LedgerRow) (row : LedgerRow) : List LedgerRow :=
  if rows.any (·.key = row.key) then rows else rows ++ [row]

def refundKey (id : String) : String := "stripe:refund:" ++ id

def holdKey (id : String) : String := "stripe:dispute_hold:" ++ id

def releaseKey (id : String) : String := "stripe:dispute_release:" ++ id

inductive Task
  | topUp (session : CheckoutSession)
  | applyRefundDebit (refund : Refund)
  | holdDisputedCredits (dispute : Dispute)
  | releaseDisputedCredits (dispute : Dispute)

/-- `refund.status && refund.status !== "succeeded"`. -/
def Refund.hasSucceeded (refund : Refund) : Bool := match refund.status with
  | none => true
  | some status => status = "" || status = "succeeded"

/-- `handleStripeWebhookEvent`, as far as it is about the ledger. -/
def EventData.tasks : EventData → List Task
  | .checkoutSessionCompleted session =>
    if session.mode ≠ "payment" ∨ session.paymentStatus ≠ "paid" then [] else [.topUp session]
  | .chargeRefunded refunds => refunds.map .applyRefundDebit
  | .refundCreated refund => [.applyRefundDebit refund]
  | .refundUpdated refund => [.applyRefundDebit refund]
  | .refundFailed _ => []
  | .disputeCreated dispute => [.holdDisputedCredits dispute]
  | .disputeFundsWithdrawn dispute => [.holdDisputedCredits dispute]
  | .disputeClosed dispute => if dispute.status ≠ "won" then [] else [.releaseDisputedCredits dispute]
  | .disputeFundsReinstated dispute => [.releaseDisputedCredits dispute]

inductive Lookup
  | throws
  | returns
  | inserts (row : LedgerRow)

def Task.look (stripe : StripeObjects) (rows : List LedgerRow) : Task → Lookup
  | .topUp session =>
    match creditMetadata session.metadata with
    | none => .throws
    | some credit => .inserts (.of credit.accountId credit.idempotencyKey credit.amountMicros)
  | .applyRefundDebit refund =>
    if refund.hasSucceeded = false then
      .returns
    else
      match (metadataForRefund stripe refund).bind Metadata.accountId with
      | none => .returns
      | some accountId =>
        if hasCreditLedgerEntry rows accountId (refundKey refund.id) then
          .returns
        else
          .inserts (.of accountId (refundKey refund.id) (-centsToMicros refund.amount))
  | .holdDisputedCredits dispute =>
    match (metadataForDispute stripe dispute).bind Metadata.accountId with
    | none => .returns
    | some accountId => .inserts (.of accountId (holdKey dispute.id) (-centsToMicros dispute.amount))
  | .releaseDisputedCredits dispute =>
    match (metadataForDispute stripe dispute).bind Metadata.accountId with
    | none => .returns
    | some accountId =>
      if hasCreditLedgerEntry rows accountId (holdKey dispute.id) = false then
        .returns
      else
        .inserts (.of accountId (releaseKey dispute.id) (centsToMicros dispute.amount))

/-! ## The webhook -/

inductive Stage
  | received
  | recorded (firstSeen : Bool)
  | handling (tasks : List Task)
  | inserting (row : LedgerRow) (tasks : List Task)

structure Delivery where
  event : StripeEvent
  stage : Stage

structure WebhookState where
  /-- The recorded events, with whether they are processed. -/
  webhookEvents : Slots String Bool
  rows : List LedgerRow
  deliveries : Slots ℕ Delivery

inductive WebhookStep
  | deliver (i : ℕ) (event : StripeEvent)
  /-- The next step of a delivery. What it calls may fail; it then answers 500. -/
  | advance (i : ℕ) (succeeds : Bool)
  | stop (i : ℕ)

namespace WebhookState

def fresh : WebhookState := { webhookEvents := [], rows := [], deliveries := [] }

def put (s : WebhookState) (i : ℕ) (delivery : Delivery) : WebhookState :=
  { s with deliveries := s.deliveries.put i delivery }

def answer (s : WebhookState) (i : ℕ) : WebhookState := { s with deliveries := s.deliveries.drop i }

def isProcessed (s : WebhookState) (id : String) : Bool := s.webhookEvents.get id = some true

def advance (stripe : StripeObjects) (s : WebhookState) (i : ℕ) (delivery : Delivery) : WebhookState :=
  let next (stage : Stage) := s.put i { delivery with stage }
  let event := delivery.event
  match delivery.stage with
  | .received =>
    match s.webhookEvents.get event.id with
    | none => { next (.recorded true) with webhookEvents := s.webhookEvents.put event.id false }
    | some _ => next (.recorded false)
  | .recorded firstSeen =>
    if firstSeen = false ∧ s.isProcessed event.id then s.answer i else next (.handling event.data.tasks)
  | .handling [] => { s.answer i with webhookEvents := s.webhookEvents.put event.id true }
  | .handling (task :: tasks) =>
    match task.look stripe s.rows with
    | .throws => s.answer i
    | .returns => next (.handling tasks)
    | .inserts row => next (.inserting row tasks)
  | .inserting row tasks => { next (.handling tasks) with rows := insertEntry s.rows row }

def step (stripe : StripeObjects) (events : List StripeEvent) (s : WebhookState) : WebhookStep → Option WebhookState
  | .deliver i event =>
    if event ∈ events ∧ s.deliveries.get i = none then
      some (s.put i { event, stage := .received })
    else
      none
  | .advance i succeeds =>
    (s.deliveries.get i).map fun delivery =>
      if succeeds then s.advance stripe i delivery else s.answer i
  | .stop i => some (s.answer i)

/-- `getBillingBalance` of an account. -/
def balance (s : WebhookState) (accountId : String) : ℤ :=
  getBillingBalance ((s.rows.filter (·.accountId = accountId)).map (·.entry))

end WebhookState

/-! ## The payment -/

namespace EventData

def paid : EventData → Bool
  | .checkoutSessionCompleted session => session.mode = "payment" ∧ session.paymentStatus = "paid"
  | _ => false

def refunds : EventData → List Refund
  | .chargeRefunded refunds => refunds
  | .refundCreated refund => [refund]
  | .refundUpdated refund => [refund]
  | .refundFailed refund => [{ refund with status := some "failed" }]
  | _ => []

def disputes : EventData → List Dispute
  | .disputeCreated dispute => [dispute]
  | .disputeFundsWithdrawn dispute => [dispute]
  | .disputeClosed dispute => [dispute]
  | .disputeFundsReinstated dispute => [dispute]
  | _ => []

def takes : EventData → Bool
  | .disputeCreated _ => true
  | .disputeFundsWithdrawn _ => true
  | _ => false

def favours : EventData → Bool
  | .disputeClosed dispute => dispute.status = "won"
  | .disputeFundsReinstated _ => true
  | _ => false

end EventData

def Refund.hasFailed (refund : Refund) : Bool := refund.status = some "failed" || refund.status = some "canceled"

structure Payment where
  stripe : StripeObjects
  credit : CreditMetadata
  paymentIntent : String
  events : List StripeEvent

namespace Payment

variable (p : Payment)

def refunds : List Refund := p.events.flatMap (·.data.refunds)

def disputes : List Dispute := p.events.flatMap (·.data.disputes)

def refundIds : Finset String := (p.refunds.map (·.id)).toFinset

def disputeIds : Finset String := (p.disputes.map (·.id)).toFinset

def shownSucceeded (id : String) : Bool := p.refunds.any fun refund => refund.id = id ∧ refund.hasSucceeded

def shownFailed (id : String) : Bool := p.refunds.any fun refund => refund.id = id ∧ refund.hasFailed

def taken (id : String) : Bool := p.events.any fun e => e.data.takes ∧ e.data.disputes.any (·.id = id)

def favourable (id : String) : Bool := p.events.any fun e => e.data.favours ∧ e.data.disputes.any (·.id = id)

def refundAmount (id : String) : ℕ := ((p.refunds.find? (·.id = id)).map (·.amount)).getD 0

def disputeAmount (id : String) : ℕ := ((p.disputes.find? (·.id = id)).map (·.amount)).getD 0

/-- The credited amount, less the refunds that have succeeded and not failed, less the disputes that
have not ended in the merchant's favour. -/
def expected : ℤ := (if p.events.any (·.data.paid) then p.credit.amountMicros else 0)
    - ∑ id ∈ p.refundIds with p.shownSucceeded id ∧ p.shownFailed id = false, centsToMicros (p.refundAmount id)
    - ∑ id ∈ p.disputeIds with p.favourable id = false, centsToMicros (p.disputeAmount id)

structure WellFormed : Prop where
  ids : ∀ e ∈ p.events, ∀ e' ∈ p.events, e.id = e'.id → e = e'
  checkout : ∀ e ∈ p.events, ∀ session, e.data = .checkoutSessionCompleted session →
    creditMetadata session.metadata = some p.credit
  intent : p.paymentIntent ≠ "" ∧ (p.stripe.paymentIntents p.paymentIntent).accountId = some p.credit.accountId
  refundAmount : ∀ refund ∈ p.refunds, ∀ other ∈ p.refunds, refund.id = other.id → refund.amount = other.amount
  refundIntent : ∀ refund ∈ p.refunds, refund.paymentIntent = some p.paymentIntent
  disputeAmount : ∀ dispute ∈ p.disputes, ∀ other ∈ p.disputes, dispute.id = other.id → dispute.amount = other.amount
  disputeIntent : ∀ dispute ∈ p.disputes, dispute.paymentIntent = some p.paymentIntent ∨
    (dispute.paymentIntent = none ∧ ∃ chargeId, dispute.charge = some chargeId ∧ chargeId ≠ "" ∧
      (p.stripe.charges chargeId).paymentIntent = some p.paymentIntent)
  /-- The key of the checkout is not one of an object of Stripe. -/
  key : ∀ id, p.credit.idempotencyKey ≠ refundKey id ∧ p.credit.idempotencyKey ≠ holdKey id ∧
    p.credit.idempotencyKey ≠ releaseKey id

/-- No refund fails that has succeeded, no dispute is lost that was not taken, and what metadata the
refunds and the disputes have of their own names the account. -/
structure Settles : Prop where
  refunds : ∀ id, p.shownSucceeded id → p.shownFailed id = false
  disputes : ∀ dispute ∈ p.disputes, p.taken dispute.id ∨ p.favourable dispute.id
  refundMetadata : ∀ refund ∈ p.refunds, refund.metadata.isEmpty ∨ refund.metadata.accountId = some p.credit.accountId
  disputeMetadata : ∀ dispute ∈ p.disputes,
    dispute.metadata.isEmpty ∨ dispute.metadata.accountId = some p.credit.accountId

def steps (s : WebhookState) (e : WebhookStep) (s' : WebhookState) : Prop := s.step p.stripe p.events e = some s'

/-- If the next step of a delivery looks for the hold of a dispute that has one, it finds it. -/
def findsHold (rows : List LedgerRow) : Stage → Bool
  | .handling (.releaseDisputedCredits dispute :: _) =>
    !p.taken dispute.id || hasCreditLedgerEntry rows p.credit.accountId (holdKey dispute.id)
  | _ => true

def HoldFirst (s : WebhookState) : WebhookStep → Prop
  | .advance i succeeds => ∀ delivery ∈ s.deliveries.get i, succeeds → p.findsHold s.rows delivery.stage
  | _ => True

instance (s : WebhookState) (step : WebhookStep) : Decidable (p.HoldFirst s step) :=
  match step with
  | .advance i succeeds =>
    inferInstanceAs (Decidable (∀ delivery ∈ s.deliveries.get i, succeeds → p.findsHold s.rows delivery.stage))
  | .deliver _ _ => isTrue trivial
  | .stop _ => isTrue trivial

def Processed (s : WebhookState) : Prop := ∀ e ∈ p.events, s.isProcessed e.id

end Payment

/-! ## The rows that are due -/

inductive Source
  | topUp
  | refund (id : String)
  | hold (id : String)
  | release (id : String)
deriving DecidableEq

namespace Source

variable (p : Payment)

def key : Source → String
  | .topUp => p.credit.idempotencyKey
  | .refund id => refundKey id
  | .hold id => holdKey id
  | .release id => releaseKey id

def amountMicros : Source → ℤ
  | .topUp => p.credit.amountMicros
  | .refund id => -centsToMicros (p.refundAmount id)
  | .hold id => -centsToMicros (p.disputeAmount id)
  | .release id => centsToMicros (p.disputeAmount id)

def row (source : Source) : LedgerRow := .of p.credit.accountId (source.key p) (source.amountMicros p)

def Applies : Source → Prop
  | .topUp => p.events.any (·.data.paid)
  | .refund id => p.shownSucceeded id
  | .hold id => p.taken id
  | .release id => p.taken id ∧ p.favourable id

end Source

def Payment.Due (p : Payment) (row : LedgerRow) : Prop := ∃ source : Source, source.Applies p ∧ source.row p = row

def Payment.Done (p : Payment) (rows : List LedgerRow) : Task → Prop
  | .topUp _ => Source.topUp.row p ∈ rows
  | .applyRefundDebit refund => refund.hasSucceeded → (Source.refund refund.id).row p ∈ rows
  | .holdDisputedCredits dispute => (Source.hold dispute.id).row p ∈ rows
  | .releaseDisputedCredits dispute => p.taken dispute.id → (Source.release dispute.id).row p ∈ rows

def Stage.Relies (p : Payment) (e : StripeEvent) (rows : List LedgerRow) : Stage → Prop
  | .handling tasks => tasks ⊆ e.data.tasks ∧ ∀ task ∈ e.data.tasks, task ∈ tasks ∨ p.Done rows task
  | .inserting row tasks => p.Due row ∧ tasks ⊆ e.data.tasks ∧
      ∀ task ∈ e.data.tasks, task ∈ tasks ∨ p.Done (rows ++ [row]) task
  | _ => True

structure WebhookState.Sound (p : Payment) (s : WebhookState) : Prop where
  keys : (s.rows.map LedgerRow.key).Nodup
  due : ∀ row ∈ s.rows, p.Due row
  processed : ∀ e ∈ p.events, s.isProcessed e.id → ∀ task ∈ e.data.tasks, p.Done s.rows task
  deliveries : ∀ i delivery, s.deliveries.get i = some delivery →
    delivery.event ∈ p.events ∧ delivery.stage.Relies p delivery.event s.rows

variable {p : Payment} {s s' : WebhookState} {rows rows' : List LedgerRow} {row row' : LedgerRow} {e : StripeEvent}
  {task : Task} {i : ℕ} {delivery : Delivery}

/-! ## Keys -/

theorem refundKey_ne_holdKey (id id' : String) : refundKey id ≠ holdKey id' := by
  intro h
  unfold refundKey holdKey at h
  have htext := congrArg String.toList h
  simp at htext

theorem refundKey_ne_releaseKey (id id' : String) : refundKey id ≠ releaseKey id' := by
  intro h
  unfold refundKey releaseKey at h
  have htext := congrArg String.toList h
  simp at htext

theorem holdKey_ne_releaseKey (id id' : String) : holdKey id ≠ releaseKey id' := by
  intro h
  unfold holdKey releaseKey at h
  have htext := congrArg String.toList h
  simp at htext

theorem Source.key_injective (hp : p.WellFormed) {source source' : Source} (h : source.key p = source'.key p) :
    source = source' := by
  cases source with
  | topUp =>
    cases source' with
    | topUp => rfl
    | refund id => exact absurd h (hp.key id).1
    | hold id => exact absurd h (hp.key id).2.1
    | release id => exact absurd h (hp.key id).2.2
  | refund id =>
    cases source' with
    | topUp => exact absurd h.symm (hp.key id).1
    | refund id' => rw [(String.append_right_inj _).1 h]
    | hold id' => exact absurd h (refundKey_ne_holdKey id id')
    | release id' => exact absurd h (refundKey_ne_releaseKey id id')
  | hold id =>
    cases source' with
    | topUp => exact absurd h.symm (hp.key id).2.1
    | refund id' => exact absurd h.symm (refundKey_ne_holdKey id' id)
    | hold id' => rw [(String.append_right_inj _).1 h]
    | release id' => exact absurd h (holdKey_ne_releaseKey id id')
  | release id =>
    cases source' with
    | topUp => exact absurd h.symm (hp.key id).2.2
    | refund id' => exact absurd h.symm (refundKey_ne_releaseKey id' id)
    | hold id' => exact absurd h.symm (holdKey_ne_releaseKey id' id)
    | release id' => rw [(String.append_right_inj _).1 h]

theorem Payment.Due.of_key (hp : p.WellFormed) (h : p.Due row) (source : Source) (hkey : row.key = source.key p) :
    source.Applies p ∧ source.row p = row := by
  obtain ⟨source', happlies, rfl⟩ := h
  obtain rfl := Source.key_injective hp hkey
  exact ⟨happlies, rfl⟩

theorem mem_insertEntry (hp : p.WellFormed) (hrows : ∀ row ∈ rows, p.Due row) (hdue : p.Due row) :
    row ∈ insertEntry rows row := by
  unfold insertEntry
  split_ifs with hany
  · obtain ⟨row', hrow', hkey⟩ := List.any_eq_true.1 hany
    obtain ⟨source, -, rfl⟩ := hdue
    obtain ⟨-, hsame⟩ := (hrows row' hrow').of_key hp source (of_decide_eq_true hkey)
    rwa [hsame]
  · exact List.mem_append_right rows List.mem_cons_self

theorem subset_insertEntry : rows ⊆ insertEntry rows row := by
  unfold insertEntry
  split_ifs
  · exact List.Subset.refl rows
  · exact List.subset_append_left rows [row]

theorem of_mem_insertEntry (h : row' ∈ insertEntry rows row) : row' ∈ rows ∨ row' = row := by
  unfold insertEntry at h
  split_ifs at h
  · exact .inl h
  · exact (List.mem_append.1 h).imp id List.mem_singleton.1

theorem insertEntry_nodup (h : (rows.map LedgerRow.key).Nodup) : ((insertEntry rows row).map LedgerRow.key).Nodup := by
  unfold insertEntry
  split_ifs with hany
  · exact h
  · rw [List.map_append, List.nodup_append]
    refine ⟨h, List.nodup_singleton _, fun key hkey key' hkey' heq => hany ?_⟩
    obtain ⟨row', hrow', rfl⟩ := List.mem_map.1 hkey
    obtain rfl := List.mem_singleton.1 hkey'
    exact List.any_eq_true.2 ⟨row', hrow', decide_eq_true heq⟩

theorem Payment.Done.mono (hsub : rows ⊆ rows') (h : p.Done rows task) : p.Done rows' task := by
  cases task with
  | topUp | holdDisputedCredits => exact hsub h
  | applyRefundDebit refund => exact fun hsucceeded => hsub (h hsucceeded)
  | releaseDisputedCredits dispute => exact fun htaken => hsub (h htaken)

theorem Stage.Relies.mono {stage : Stage} (hsub : rows ⊆ rows') (h : stage.Relies p e rows) : stage.Relies p e rows' := by
  cases stage with
  | received | recorded => trivial
  | handling tasks => exact ⟨h.1, fun task htask => (h.2 task htask).imp id (Payment.Done.mono hsub)⟩
  | inserting row tasks =>
    refine ⟨h.1, h.2.1, fun task htask => (h.2.2 task htask).imp id (Payment.Done.mono ?_)⟩
    exact List.append_subset.2
      ⟨List.Subset.trans hsub (List.subset_append_left rows' [row]), List.subset_append_right rows' [row]⟩

/-! ## What an event shows of the payment -/

def EventData.Shows (data : EventData) : Task → Prop
  | .topUp session => data = .checkoutSessionCompleted session ∧ data.paid
  | .applyRefundDebit refund => refund ∈ data.refunds
  | .holdDisputedCredits dispute => dispute ∈ data.disputes ∧ data.takes
  | .releaseDisputedCredits dispute => dispute ∈ data.disputes ∧ data.favours

variable {data : EventData}

theorem EventData.shows_of_mem (h : task ∈ data.tasks) : data.Shows task := by
  cases data with
  | checkoutSessionCompleted session =>
    simp only [EventData.tasks] at h
    split_ifs at h with hunpaid
    · cases h
    · obtain rfl := List.mem_singleton.1 h
      simp only [ne_eq, not_or, not_not] at hunpaid
      exact ⟨rfl, by simp [EventData.paid, hunpaid]⟩
  | chargeRefunded refunds =>
    obtain ⟨refund, hrefund, rfl⟩ := List.mem_map.1 h
    exact hrefund
  | refundCreated refund =>
    obtain rfl := List.mem_singleton.1 h
    exact List.mem_singleton_self refund
  | refundUpdated refund =>
    obtain rfl := List.mem_singleton.1 h
    exact List.mem_singleton_self refund
  | refundFailed refund => cases h
  | disputeCreated dispute =>
    obtain rfl := List.mem_singleton.1 h
    exact ⟨List.mem_singleton_self dispute, rfl⟩
  | disputeFundsWithdrawn dispute =>
    obtain rfl := List.mem_singleton.1 h
    exact ⟨List.mem_singleton_self dispute, rfl⟩
  | disputeClosed dispute =>
    simp only [EventData.tasks] at h
    split_ifs at h with hlost
    · cases h
    · obtain rfl := List.mem_singleton.1 h
      exact ⟨List.mem_singleton_self dispute, decide_eq_true (not_not.1 hlost)⟩
  | disputeFundsReinstated dispute =>
    obtain rfl := List.mem_singleton.1 h
    exact ⟨List.mem_singleton_self dispute, rfl⟩

theorem EventData.mem_of_refund {refund : Refund} (h : refund ∈ data.refunds)
    (hsucceeded : refund.hasSucceeded) : .applyRefundDebit refund ∈ data.tasks := by
  cases data with
  | chargeRefunded refunds => exact List.mem_map_of_mem h
  | refundCreated | refundUpdated => exact List.mem_singleton.2 (congrArg Task.applyRefundDebit (List.mem_singleton.1 h))
  | refundFailed refund' =>
    obtain rfl := List.mem_singleton.1 h
    simp [Refund.hasSucceeded] at hsucceeded
  | _ => cases h

theorem EventData.mem_of_takes {dispute : Dispute} (h : dispute ∈ data.disputes) (htakes : data.takes) :
    .holdDisputedCredits dispute ∈ data.tasks := by
  cases data with
  | disputeCreated dispute' => exact List.mem_singleton.2 (congrArg Task.holdDisputedCredits (List.mem_singleton.1 h))
  | disputeFundsWithdrawn dispute' =>
    exact List.mem_singleton.2 (congrArg Task.holdDisputedCredits (List.mem_singleton.1 h))
  | _ => cases htakes

theorem EventData.mem_of_favours {dispute : Dispute} (h : dispute ∈ data.disputes)
    (hfavours : data.favours) : .releaseDisputedCredits dispute ∈ data.tasks := by
  cases data with
  | disputeClosed dispute' =>
    have hwon : dispute'.status = "won" := of_decide_eq_true hfavours
    obtain rfl := List.mem_singleton.1 h
    simp [EventData.tasks, hwon]
  | disputeFundsReinstated dispute' =>
    exact List.mem_singleton.2 (congrArg Task.releaseDisputedCredits (List.mem_singleton.1 h))
  | _ => cases hfavours

theorem EventData.exists_topUp (hpaid : data.paid) : ∃ session, .topUp session ∈ data.tasks := by
  cases data with
  | checkoutSessionCompleted session =>
    have hboth : session.mode = "payment" ∧ session.paymentStatus = "paid" := of_decide_eq_true hpaid
    exact ⟨session, by simp [EventData.tasks, hboth]⟩
  | _ => cases hpaid

namespace Payment

variable {refund : Refund} {dispute : Dispute}

theorem mem_refunds (he : e ∈ p.events) (h : refund ∈ e.data.refunds) : refund ∈ p.refunds :=
  List.mem_flatMap.2 ⟨e, he, h⟩

theorem mem_disputes (he : e ∈ p.events) (h : dispute ∈ e.data.disputes) : dispute ∈ p.disputes :=
  List.mem_flatMap.2 ⟨e, he, h⟩

theorem taken_of_shows (he : e ∈ p.events) (h : dispute ∈ e.data.disputes) (htakes : e.data.takes) :
    p.taken dispute.id := by
  refine List.any_eq_true.2 ⟨e, he, decide_eq_true ⟨htakes, ?_⟩⟩
  exact List.any_eq_true.2 ⟨dispute, h, decide_eq_true rfl⟩

theorem favourable_of_shows (he : e ∈ p.events) (h : dispute ∈ e.data.disputes)
    (hfavours : e.data.favours) : p.favourable dispute.id := by
  refine List.any_eq_true.2 ⟨e, he, decide_eq_true ⟨hfavours, ?_⟩⟩
  exact List.any_eq_true.2 ⟨dispute, h, decide_eq_true rfl⟩

theorem WellFormed.refundAmount_eq (hp : p.WellFormed) (h : refund ∈ p.refunds) :
    p.refundAmount refund.id = refund.amount := by
  unfold Payment.refundAmount
  cases hfind : p.refunds.find? (·.id = refund.id) with
  | none => exact absurd (decide_eq_true rfl) (List.find?_eq_none.1 hfind refund h)
  | some other =>
    have hid : other.id = refund.id := by simpa using List.find?_some hfind
    exact hp.refundAmount other (List.mem_of_find?_eq_some hfind) refund h hid

theorem WellFormed.disputeAmount_eq (hp : p.WellFormed) (h : dispute ∈ p.disputes) :
    p.disputeAmount dispute.id = dispute.amount := by
  unfold Payment.disputeAmount
  cases hfind : p.disputes.find? (·.id = dispute.id) with
  | none => exact absurd (decide_eq_true rfl) (List.find?_eq_none.1 hfind dispute h)
  | some other =>
    have hid : other.id = dispute.id := by simpa using List.find?_some hfind
    exact hp.disputeAmount other (List.mem_of_find?_eq_some hfind) dispute h hid

theorem filter_ne_empty {text : String} (h : text ≠ "") : (some text).filter (· ≠ "") = some text := by
  simp [h]

theorem refund_accountId (hp : p.WellFormed) (hs : p.Settles) (h : refund ∈ p.refunds) :
    (metadataForRefund p.stripe refund).bind Metadata.accountId = some p.credit.accountId := by
  unfold metadataForRefund
  split_ifs with hempty
  · obtain hempty' | haccount := hs.refundMetadata refund h
    · rw [hempty] at hempty'
      cases hempty'
    · exact haccount
  · rw [hp.refundIntent refund h, paymentIntentId, filter_ne_empty hp.intent.1]
    exact hp.intent.2

theorem dispute_accountId (hp : p.WellFormed) (hs : p.Settles) (h : dispute ∈ p.disputes) :
    (metadataForDispute p.stripe dispute).bind Metadata.accountId = some p.credit.accountId := by
  unfold metadataForDispute
  split_ifs with hempty
  · obtain hempty' | haccount := hs.disputeMetadata dispute h
    · rw [hempty] at hempty'
      cases hempty'
    · exact haccount
  · obtain hintent | ⟨hnone, chargeId, hcharge, hne, hintent⟩ := hp.disputeIntent dispute h
    · rw [hintent, paymentIntentId, filter_ne_empty hp.intent.1]
      exact hp.intent.2
    · simp only [hnone, hcharge, hintent, paymentIntentId, Option.filter_none, filter_ne_empty hne,
        filter_ne_empty hp.intent.1]
      exact hp.intent.2

end Payment

theorem WebhookState.of_hasCreditLedgerEntry (hp : p.WellFormed) (hrows : ∀ row ∈ rows, p.Due row) (source : Source)
    {accountId : String} (h : hasCreditLedgerEntry rows accountId (source.key p)) :
    source.Applies p ∧ source.row p ∈ rows := by
  obtain ⟨row, hrow, hkey⟩ := List.any_eq_true.1 h
  obtain ⟨happlies, hsame⟩ := (hrows row hrow).of_key hp source (of_decide_eq_true hkey).2
  exact ⟨happlies, hsame ▸ hrow⟩

/-! ## The steps -/

theorem Task.look_spec (hp : p.WellFormed) (hs : p.Settles) (he : e ∈ p.events) (hrows : ∀ row ∈ rows, p.Due row)
    (htask : task ∈ e.data.tasks)
    (hhold : ∀ dispute, task = .releaseDisputedCredits dispute → p.taken dispute.id →
      hasCreditLedgerEntry rows p.credit.accountId (holdKey dispute.id)) :
    (task.look p.stripe rows = .returns ∧ p.Done rows task) ∨
      ∃ row, task.look p.stripe rows = .inserts row ∧ p.Due row ∧ ∀ rows', row ∈ rows' → p.Done rows' task := by
  have hshows := EventData.shows_of_mem htask
  cases task with
  | topUp session =>
    have hcredit := hp.checkout e he session hshows.1
    refine .inr ⟨Source.topUp.row p, by simp only [Task.look, hcredit]; rfl, ⟨.topUp, ?_, rfl⟩, fun _ => id⟩
    exact List.any_eq_true.2 ⟨e, he, hshows.2⟩
  | applyRefundDebit refund =>
    have hmem : refund ∈ p.refunds := Payment.mem_refunds he hshows
    have haccount := Payment.refund_accountId hp hs hmem
    by_cases hsucceeded : refund.hasSucceeded = false
    · refine .inl ⟨by simp only [Task.look, if_pos hsucceeded], fun htrue => ?_⟩
      rw [hsucceeded] at htrue
      cases htrue
    · by_cases hthere : hasCreditLedgerEntry rows p.credit.accountId (refundKey refund.id)
      · obtain ⟨-, hrow⟩ := WebhookState.of_hasCreditLedgerEntry hp hrows (.refund refund.id) hthere
        exact .inl ⟨by simp only [Task.look, if_neg hsucceeded, haccount, if_pos hthere], fun _ => hrow⟩
      · refine .inr ⟨(Source.refund refund.id).row p, ?_, ⟨.refund refund.id, ?_, rfl⟩, fun rows' hrow _ => hrow⟩
        · simp only [Task.look, if_neg hsucceeded, haccount, if_neg hthere, Source.row, Source.key,
            Source.amountMicros, hp.refundAmount_eq hmem]
        · exact List.any_eq_true.2 ⟨refund, hmem, decide_eq_true ⟨rfl, by simpa using hsucceeded⟩⟩
  | holdDisputedCredits dispute =>
    have hmem : dispute ∈ p.disputes := Payment.mem_disputes he hshows.1
    have haccount := Payment.dispute_accountId hp hs hmem
    refine .inr ⟨(Source.hold dispute.id).row p, ?_, ⟨.hold dispute.id, ?_, rfl⟩, fun _ => id⟩
    · simp only [Task.look, haccount, Source.row, Source.key, Source.amountMicros, hp.disputeAmount_eq hmem]
    · exact Payment.taken_of_shows he hshows.1 hshows.2
  | releaseDisputedCredits dispute =>
    have hmem : dispute ∈ p.disputes := Payment.mem_disputes he hshows.1
    have haccount := Payment.dispute_accountId hp hs hmem
    by_cases hthere : hasCreditLedgerEntry rows p.credit.accountId (holdKey dispute.id) = false
    · refine .inl ⟨by simp only [Task.look, haccount, if_pos hthere], fun htaken => ?_⟩
      rw [hhold dispute rfl htaken] at hthere
      cases hthere
    · have htrue : hasCreditLedgerEntry rows p.credit.accountId (holdKey dispute.id) := by simpa using hthere
      obtain ⟨htaken, -⟩ := WebhookState.of_hasCreditLedgerEntry hp hrows (.hold dispute.id) htrue
      refine .inr ⟨(Source.release dispute.id).row p, ?_, ⟨.release dispute.id, ?_, rfl⟩, fun rows' hrow _ => hrow⟩
      · simp only [Task.look, haccount, if_neg hthere, Source.row, Source.key, Source.amountMicros,
          hp.disputeAmount_eq hmem]
      · exact ⟨htaken, Payment.favourable_of_shows he hshows.1 hshows.2⟩

namespace WebhookState

/-- **One delivery moves.** Rows are only added, and only such as are due. -/
theorem Sound.next (h : s.Sound p) (hsub : s.rows ⊆ s'.rows) (hkeys : (s'.rows.map LedgerRow.key).Nodup)
    (hdue : ∀ row ∈ s'.rows, p.Due row)
    (hprocessed : ∀ e ∈ p.events, s'.isProcessed e.id → s.isProcessed e.id ∨ ∀ task ∈ e.data.tasks, p.Done s.rows task)
    (hdeliveries : ∀ i delivery, s'.deliveries.get i = some delivery → s.deliveries.get i = some delivery ∨
      (delivery.event ∈ p.events ∧ delivery.stage.Relies p delivery.event s'.rows)) : s'.Sound p where
  keys := hkeys
  due := hdue
  processed e he hdone task htask := by
    obtain hold | hnew := hprocessed e he hdone
    · exact (h.processed e he hold task htask).mono hsub
    · exact (hnew task htask).mono hsub
  deliveries i delivery hi := by
    obtain hold | hnew := hdeliveries i delivery hi
    · obtain ⟨he, hrelies⟩ := h.deliveries i delivery hold
      exact ⟨he, hrelies.mono hsub⟩
    · exact hnew

theorem Sound.put (h : s.Sound p) (he : delivery.event ∈ p.events) (hrelies : delivery.stage.Relies p delivery.event s.rows) :
    (s.put i delivery).Sound p := by
  refine h.next (List.Subset.refl _) h.keys h.due (fun _ _ hdone => .inl hdone) fun j other hj => ?_
  obtain ⟨-, rfl⟩ | ⟨-, hold⟩ := Slots.get_put_cases hj
  · exact .inr ⟨he, hrelies⟩
  · exact .inl hold

theorem Sound.answer (h : s.Sound p) (i : ℕ) : (s.answer i).Sound p :=
  h.next (List.Subset.refl _) h.keys h.due (fun _ _ hdone => .inl hdone) fun _ _ hj => .inl (Slots.get_of_get_drop hj)

theorem Sound.mark (h : s.Sound p) {id : String} {processed : Bool}
    (hid : processed → ∀ e ∈ p.events, e.id = id → ∀ task ∈ e.data.tasks, p.Done s.rows task) :
    ({ s with webhookEvents := s.webhookEvents.put id processed } : WebhookState).Sound p := by
  refine h.next (List.Subset.refl _) h.keys h.due (fun e he hdone => ?_) fun _ _ hj => .inl hj
  obtain ⟨hsame, hvalue⟩ | ⟨-, hold⟩ := Slots.get_put_cases (of_decide_eq_true hdone)
  · exact .inr (hid hvalue.symm e he hsame)
  · exact .inl (decide_eq_true hold)

theorem Sound.advance (hp : p.WellFormed) (hs : p.Settles) {succeeds : Bool} (h : s.Sound p)
    (hi : s.deliveries.get i = some delivery) (hok : p.HoldFirst s (.advance i succeeds)) (hsucceeds : succeeds) :
    (s.advance p.stripe i delivery).Sound p := by
  obtain ⟨he, hrelies⟩ := h.deliveries i delivery hi
  unfold WebhookState.advance
  cases hstage : delivery.stage with
  | received =>
    cases hrecord : s.webhookEvents.get delivery.event.id with
    | none =>
      simp only [hrecord]
      have hput : (s.put i { delivery with stage := .recorded true }).Sound p := h.put he trivial
      exact hput.mark fun hfalse => absurd hfalse Bool.false_ne_true
    | some processed =>
      simp only [hrecord]
      exact h.put he trivial
  | recorded firstSeen =>
    simp only
    split_ifs
    · exact h.answer i
    · exact h.put he ⟨List.Subset.refl _, fun task htask => .inl htask⟩
  | handling tasks =>
    rw [hstage] at hrelies
    cases tasks with
    | nil =>
      refine (h.answer i).mark fun _ e' he' hid task htask => ?_
      obtain rfl := hp.ids e' he' delivery.event he hid
      exact (hrelies.2 task htask).resolve_left List.not_mem_nil
    | cons task tasks =>
      have htask : task ∈ delivery.event.data.tasks := hrelies.1 List.mem_cons_self
      have hhold (dispute : Dispute) (hrelease : task = .releaseDisputedCredits dispute) (htaken : p.taken dispute.id) :
          hasCreditLedgerEntry s.rows p.credit.accountId (holdKey dispute.id) := by
        have hfinds := hok delivery hi hsucceeds
        rw [hstage, hrelease] at hfinds
        simpa [Payment.findsHold, htaken] using hfinds
      have hsub : tasks ⊆ delivery.event.data.tasks := fun other hother => hrelies.1 (List.mem_cons_of_mem _ hother)
      obtain ⟨hlook, hdone⟩ | ⟨row, hlook, hdue, hdone⟩ := Task.look_spec hp hs he h.due htask hhold
      · simp only [hlook]
        refine h.put he ⟨hsub, fun other hother => ?_⟩
        obtain hmem | hold := hrelies.2 other hother
        · obtain rfl | hmem := List.mem_cons.1 hmem
          · exact .inr hdone
          · exact .inl hmem
        · exact .inr hold
      · simp only [hlook]
        refine h.put he ⟨hdue, hsub, fun other hother => ?_⟩
        obtain hmem | hold := hrelies.2 other hother
        · obtain rfl | hmem := List.mem_cons.1 hmem
          · exact .inr (hdone _ (List.mem_append_right _ List.mem_cons_self))
          · exact .inl hmem
        · exact .inr (hold.mono (List.subset_append_left _ _))
  | inserting row tasks =>
    rw [hstage] at hrelies
    obtain ⟨hdue, hsub, hdone⟩ := hrelies
    have hrow := mem_insertEntry hp h.due hdue
    have hinsert : ({ s with rows := insertEntry s.rows row } : WebhookState).Sound p := by
      refine h.next subset_insertEntry (insertEntry_nodup h.keys) (fun row' hrow' => ?_) (fun _ _ hold => .inl hold)
        fun _ _ hj => .inl hj
      obtain hold | rfl := of_mem_insertEntry hrow'
      · exact h.due row' hold
      · exact hdue
    refine hinsert.put he ⟨hsub, fun other hother => (hdone other hother).imp id (Payment.Done.mono ?_)⟩
    exact List.append_subset.2 ⟨subset_insertEntry, List.cons_subset.2 ⟨hrow, List.nil_subset _⟩⟩

/-- **The step lemma.** -/
theorem Sound.step {step : WebhookStep} (hp : p.WellFormed) (hs : p.Settles) (h : s.Sound p)
    (hstep : p.steps s step s') (hok : p.HoldFirst s step) : s'.Sound p := by
  cases step with
  | deliver i event =>
    simp only [Payment.steps, WebhookState.step] at hstep
    split_ifs at hstep with hfree
    cases hstep
    exact h.put hfree.1 trivial
  | advance i succeeds =>
    obtain ⟨delivery, hi, rfl⟩ := Option.map_eq_some_iff.1 hstep
    split_ifs with hsucceeds
    · exact h.advance hp hs hi hok hsucceeds
    · exact h.answer i
  | stop i =>
    cases hstep
    exact h.answer i

theorem Sound.fresh (p : Payment) : fresh.Sound p where
  keys := List.nodup_nil
  due row hrow := absurd hrow List.not_mem_nil
  processed e he hdone := by simp [isProcessed, WebhookState.fresh, Slots.get] at hdone
  deliveries i delivery hi := by cases hi

end WebhookState

/-! ## The sum -/

def Payment.sources (p : Payment) : Finset Source := (if p.events.any (·.data.paid) then {.topUp} else ∅) ∪
    ((p.refundIds.filter fun id => p.shownSucceeded id).image .refund ∪
      ((p.disputeIds.filter fun id => p.taken id).image .hold ∪
        ((p.disputeIds.filter fun id => p.taken id).filter fun id => p.favourable id).image .release))

theorem Payment.mem_refundIds {id : String} (h : p.shownSucceeded id) : id ∈ p.refundIds := by
  obtain ⟨refund, hrefund, hid⟩ := List.any_eq_true.1 h
  exact List.mem_toFinset.2 (List.mem_map.2 ⟨refund, hrefund, (of_decide_eq_true hid).1⟩)

theorem Payment.mem_disputeIds {id : String} (h : p.taken id) : id ∈ p.disputeIds := by
  obtain ⟨e, he, hid⟩ := List.any_eq_true.1 h
  obtain ⟨dispute, hdispute, hid⟩ := List.any_eq_true.1 (of_decide_eq_true hid).2
  exact List.mem_toFinset.2 (List.mem_map.2 ⟨dispute, Payment.mem_disputes he hdispute, of_decide_eq_true hid⟩)

theorem Payment.mem_sources {source : Source} : source ∈ p.sources ↔ source.Applies p := by
  unfold Payment.sources
  cases source with
  | topUp => by_cases hpaid : p.events.any (·.data.paid) <;> simp [Source.Applies, hpaid]
  | refund id =>
    have hmem : p.shownSucceeded id → id ∈ p.refundIds := Payment.mem_refundIds
    by_cases hpaid : p.events.any (·.data.paid) <;> simpa [Source.Applies, hpaid] using hmem
  | hold id =>
    have hmem : p.taken id → id ∈ p.disputeIds := Payment.mem_disputeIds
    by_cases hpaid : p.events.any (·.data.paid) <;> simpa [Source.Applies, hpaid] using hmem
  | release id =>
    have hmem : p.taken id → id ∈ p.disputeIds := Payment.mem_disputeIds
    by_cases hpaid : p.events.any (·.data.paid) <;> simp [Source.Applies, hpaid] <;> tauto

theorem Payment.Settles.sum_disputes (hs : p.Settles) :
    ∑ id ∈ p.disputeIds with p.taken id, -centsToMicros (p.disputeAmount id) +
        ∑ id ∈ (p.disputeIds.filter fun id => p.taken id) with p.favourable id, centsToMicros (p.disputeAmount id) =
      -∑ id ∈ p.disputeIds with p.favourable id = false, centsToMicros (p.disputeAmount id) := by
  -- a dispute that has not ended in favour was taken
  have hlost : ((p.disputeIds.filter fun id => p.taken id).filter fun id => ¬ p.favourable id) =
      p.disputeIds.filter fun id => p.favourable id = false := by
    ext id
    simp only [Finset.mem_filter, Bool.not_eq_true, and_assoc, and_congr_right_iff, and_iff_right_iff_imp]
    intro hid hnot
    obtain ⟨dispute, hdispute, rfl⟩ := List.mem_map.1 (List.mem_toFinset.1 hid)
    refine (hs.disputes dispute hdispute).resolve_right fun hfavourable => ?_
    rw [hnot] at hfavourable
    cases hfavourable
  have hsplit := Finset.sum_filter_add_sum_filter_not (p.disputeIds.filter fun id => p.taken id)
    (fun id => p.favourable id = true) fun id => centsToMicros (p.disputeAmount id)
  rw [hlost] at hsplit
  rw [Finset.sum_neg_distrib]
  omega

theorem disjoint_images {f g : String → Source} (h : ∀ id id', f id ≠ g id') {ids ids' : Finset String} :
    Disjoint (ids.image f) (ids'.image g) := by
  rw [Finset.disjoint_left]
  intro source hf hg
  obtain ⟨id, -, rfl⟩ := Finset.mem_image.1 hf
  obtain ⟨id', -, hsame⟩ := Finset.mem_image.1 hg
  exact h id id' hsame.symm

theorem Payment.Settles.sum_sources (hs : p.Settles) : ∑ source ∈ p.sources, source.amountMicros p = p.expected := by
  have hreleases : Disjoint ((p.disputeIds.filter fun id => p.taken id).image Source.hold)
      (((p.disputeIds.filter fun id => p.taken id).filter fun id => p.favourable id).image .release) :=
    disjoint_images fun _ _ => Source.noConfusion
  have hrefunds : Disjoint ((p.refundIds.filter fun id => p.shownSucceeded id).image Source.refund)
      ((p.disputeIds.filter fun id => p.taken id).image Source.hold ∪
        ((p.disputeIds.filter fun id => p.taken id).filter fun id => p.favourable id).image .release) :=
    Finset.disjoint_union_right.2
      ⟨disjoint_images fun _ _ => Source.noConfusion, disjoint_images fun _ _ => Source.noConfusion⟩
  have htopUp : Disjoint (if p.events.any (·.data.paid) then {Source.topUp} else ∅)
      ((p.refundIds.filter fun id => p.shownSucceeded id).image Source.refund ∪
        ((p.disputeIds.filter fun id => p.taken id).image Source.hold ∪
          ((p.disputeIds.filter fun id => p.taken id).filter fun id => p.favourable id).image .release)) := by
    split_ifs <;> simp
  have hsucceeded : (p.refundIds.filter fun id => p.shownSucceeded id) =
      p.refundIds.filter fun id => p.shownSucceeded id ∧ p.shownFailed id = false :=
    Finset.filter_congr fun id _ => ⟨fun h => ⟨h, hs.refunds id h⟩, And.left⟩
  have hpaid : ∑ source ∈ (if p.events.any (·.data.paid) then {Source.topUp} else ∅), source.amountMicros p =
      if p.events.any (·.data.paid) then p.credit.amountMicros else 0 := by
    split_ifs
    · exact Finset.sum_singleton _ _
    · exact Finset.sum_empty
  have hdisputes := hs.sum_disputes
  unfold Payment.sources Payment.expected
  rw [Finset.sum_union htopUp, Finset.sum_union hrefunds, Finset.sum_union hreleases, hpaid,
    Finset.sum_image (fun _ _ _ _ h => Source.refund.inj h), Finset.sum_image (fun _ _ _ _ h => Source.hold.inj h),
    Finset.sum_image (fun _ _ _ _ h => Source.release.inj h)]
  simp only [Source.amountMicros, Finset.sum_neg_distrib, ← hsucceeded] at hdisputes ⊢
  omega

theorem WebhookState.Sound.balance_eq (hp : p.WellFormed) (h : s.Sound p) (hdone : ∀ row, p.Due row → row ∈ s.rows) :
    s.balance p.credit.accountId = ∑ source ∈ p.sources, source.amountMicros p := by
  have haccount : (s.rows.filter (·.accountId = p.credit.accountId)) = s.rows := by
    rw [List.filter_eq_self]
    intro row hrow
    obtain ⟨source, -, rfl⟩ := h.due row hrow
    exact decide_eq_true rfl
  have hrows : s.rows.toFinset = p.sources.image (Source.row p) := by
    ext row
    rw [List.mem_toFinset, Finset.mem_image]
    constructor
    · intro hrow
      obtain ⟨source, happlies, hsame⟩ := h.due row hrow
      exact ⟨source, Payment.mem_sources.2 happlies, hsame⟩
    · rintro ⟨source, hsource, rfl⟩
      exact hdone _ ⟨source, Payment.mem_sources.1 hsource, rfl⟩
  have hinj : Set.InjOn (Source.row p) p.sources := fun source _ source' _ hsame =>
    Source.key_injective hp (congrArg LedgerRow.key hsame)
  calc s.balance p.credit.accountId = (s.rows.map fun row => row.entry.amountMicros).sum := by
        rw [WebhookState.balance, haccount, getBillingBalance, List.map_map]
        rfl
    _ = ∑ row ∈ s.rows.toFinset, row.entry.amountMicros := (List.sum_toFinset _ (h.keys.of_map _)).symm
    _ = ∑ source ∈ p.sources, source.amountMicros p := by
        rw [hrows, Finset.sum_image hinj]
        rfl

theorem WebhookState.Sound.due_mem (h : s.Sound p) (hprocessed : p.Processed s) (hdue : p.Due row) : row ∈ s.rows := by
  obtain ⟨source, happlies, rfl⟩ := hdue
  cases source with
  | topUp =>
    obtain ⟨e, he, hpaid⟩ := List.any_eq_true.1 happlies
    obtain ⟨session, htask⟩ := EventData.exists_topUp hpaid
    exact h.processed e he (hprocessed e he) _ htask
  | refund id =>
    obtain ⟨refund, hrefund, hid⟩ := List.any_eq_true.1 happlies
    obtain ⟨rfl, hsucceeded⟩ := of_decide_eq_true hid
    obtain ⟨e, he, hshown⟩ := List.mem_flatMap.1 hrefund
    exact h.processed e he (hprocessed e he) _ (EventData.mem_of_refund hshown hsucceeded) hsucceeded
  | hold id =>
    obtain ⟨e, he, hboth⟩ := List.any_eq_true.1 happlies
    obtain ⟨htakes, hany⟩ := of_decide_eq_true hboth
    obtain ⟨dispute, hdispute, hid⟩ := List.any_eq_true.1 hany
    obtain rfl := of_decide_eq_true hid
    exact h.processed e he (hprocessed e he) _ (EventData.mem_of_takes hdispute htakes)
  | release id =>
    obtain ⟨htaken, hfavourable⟩ := happlies
    obtain ⟨e, he, hboth⟩ := List.any_eq_true.1 hfavourable
    obtain ⟨hfavours, hany⟩ := of_decide_eq_true hboth
    obtain ⟨dispute, hdispute, hid⟩ := List.any_eq_true.1 hany
    obtain rfl := of_decide_eq_true hid
    exact h.processed e he (hprocessed e he) _ (EventData.mem_of_favours hdispute hfavours) htaken

/-- **The events of a payment commute**, where each release looks for its hold when it is there: in
whatever order, how often and how many at a time they are delivered, what is left of the payment in
the ledger once all are processed is the same. -/
theorem stripe_events_commute (hp : p.WellFormed) (hs : p.Settles) {steps : List WebhookStep}
    (hrun : Run (Restrict p.steps p.HoldFirst) .fresh steps s) (hprocessed : p.Processed s) :
    s.balance p.credit.accountId = p.expected := by
  have hsound : s.Sound p :=
    hrun.invariant (fun _ _ _ hstep h => h.step hp hs hstep.1 hstep.2) (WebhookState.Sound.fresh p)
  rw [hsound.balance_eq hp fun row hdue => hsound.due_mem hprocessed hdue]
  exact hs.sum_sources

/-! ## A release before its hold, and a refund that fails -/

/-- The metadata of a checkout of 25 dollars, and of its payment intent. -/
def checkoutMetadata : Metadata where
  opengeniAccountId := some "acct"
  opengeniCreditMicros := some 25000000
  opengeniCreditIdempotencyKey := some "checkout:1"
  others := []

def noMetadata : Metadata where
  opengeniAccountId := none
  opengeniCreditMicros := none
  opengeniCreditIdempotencyKey := none
  others := []

def paymentOf (events : List StripeEvent) : Payment where
  stripe := { paymentIntents := fun _ => checkoutMetadata, charges := fun _ => ⟨noMetadata, some "pi"⟩ }
  credit := { accountId := "acct", amountMicros := 25000000, idempotencyKey := "checkout:1" }
  paymentIntent := "pi"
  events := events

def checkoutCompleted : StripeEvent :=
  { id := "evt_1"
    data := .checkoutSessionCompleted { mode := "payment", paymentStatus := "paid", metadata := checkoutMetadata } }

def tenDollars (status : String) : Dispute where
  id := "dp"
  amount := 1000
  status := status
  metadata := noMetadata
  paymentIntent := some "pi"
  charge := some "ch"

def disputeCreated : StripeEvent := { id := "evt_2", data := .disputeCreated (tenDollars "needs_response") }

def disputeWon : StripeEvent := { id := "evt_3", data := .disputeClosed (tenDollars "won") }

def wonDispute : Payment := paymentOf [checkoutCompleted, disputeCreated, disputeWon]

def fiveDollars (status : String) : Refund where
  id := "re"
  amount := 500
  status := some status
  metadata := noMetadata
  paymentIntent := some "pi"

def refundSucceeded : StripeEvent := { id := "evt_4", data := .refundUpdated (fiveDollars "succeeded") }

def refundFailed : StripeEvent := { id := "evt_5", data := .refundUpdated (fiveDollars "failed") }

def failedRefund : Payment := paymentOf [checkoutCompleted, refundSucceeded, refundFailed]

theorem checkoutKey_ne (id : String) :
    "checkout:1" ≠ refundKey id ∧ "checkout:1" ≠ holdKey id ∧ "checkout:1" ≠ releaseKey id := by
  refine ⟨fun h => ?_, fun h => ?_, fun h => ?_⟩
  · unfold refundKey at h
    have htext := congrArg String.toList h
    simp at htext
  · unfold holdKey at h
    have htext := congrArg String.toList h
    simp at htext
  · unfold releaseKey at h
    have htext := congrArg String.toList h
    simp at htext

theorem wonDispute_wellFormed : wonDispute.WellFormed where
  ids := by decide
  checkout := by
    intro e he session hsession
    simp only [wonDispute, paymentOf, List.mem_cons, List.not_mem_nil, or_false] at he
    obtain rfl | rfl | rfl := he
    · obtain rfl := EventData.checkoutSessionCompleted.inj hsession
      rfl
    · cases hsession
    · cases hsession
  intent := by decide
  refundAmount := by decide
  refundIntent := by decide
  disputeAmount := by decide
  disputeIntent := fun dispute hdispute => .inl (by revert dispute; decide)
  key := checkoutKey_ne

theorem wonDispute_settles : wonDispute.Settles where
  refunds := by
    intro id hshown
    simp [Payment.shownSucceeded, Payment.refunds, wonDispute, paymentOf, checkoutCompleted, disputeCreated, disputeWon,
      EventData.refunds] at hshown
  disputes := by decide
  refundMetadata := by decide
  disputeMetadata := by decide

theorem failedRefund_wellFormed : failedRefund.WellFormed where
  ids := by decide
  checkout := by
    intro e he session hsession
    simp only [failedRefund, paymentOf, List.mem_cons, List.not_mem_nil, or_false] at he
    obtain rfl | rfl | rfl := he
    · obtain rfl := EventData.checkoutSessionCompleted.inj hsession
      rfl
    · cases hsession
    · cases hsession
  intent := by decide
  refundAmount := by decide
  refundIntent := by decide
  disputeAmount := by decide
  disputeIntent := by decide
  key := checkoutKey_ne

def handled (event : StripeEvent) (steps : ℕ) : List WebhookStep :=
  .deliver 0 event :: List.replicate steps (.advance 0 true)

/-- What is left of the payment where the dispute was won. -/
theorem stripe_events_commute_won :
    ∃ s, Run (Restrict wonDispute.steps wonDispute.HoldFirst) .fresh
      (handled disputeCreated 5 ++ handled disputeWon 5 ++ handled checkoutCompleted 5) s ∧
        s.balance "acct" = wonDispute.expected := by
  obtain ⟨s, hplay, hprocessed⟩ : ∃ s,
      play (guarded (WebhookState.step wonDispute.stripe wonDispute.events) wonDispute.HoldFirst) .fresh
        (handled disputeCreated 5 ++ handled disputeWon 5 ++ handled checkoutCompleted 5) = some s ∧
      wonDispute.Processed s := by
    unfold Payment.Processed
    decide +kernel
  have hrun := guarded_run hplay
  exact ⟨s, hrun, stripe_events_commute wonDispute_wellFormed wonDispute_settles hrun hprocessed⟩

/-- The event of the release is handled before the event of the hold; and a refund is debited that then
fails. -/
theorem stripe_events_depend_on_order :
    (wonDispute.WellFormed ∧ ∃ s, Run wonDispute.steps .fresh
        (handled checkoutCompleted 5 ++ handled disputeWon 4 ++ handled disputeCreated 5) s ∧
        wonDispute.Processed s ∧ s.balance "acct" = 15000000 ∧ wonDispute.expected = 25000000) ∧
      failedRefund.WellFormed ∧ ∃ s, Run failedRefund.steps .fresh
        (handled checkoutCompleted 5 ++ handled refundSucceeded 5 ++ handled refundFailed 4) s ∧
        failedRefund.Processed s ∧ s.balance "acct" = 20000000 ∧ failedRefund.expected = 25000000 := by
  constructor
  · refine ⟨wonDispute_wellFormed, exists_run_of_play ?_⟩
    unfold Payment.Processed
    decide +kernel
  · refine ⟨failedRefund_wellFormed, exists_run_of_play ?_⟩
    unfold Payment.Processed
    decide +kernel

end OpenGeni.Billing
