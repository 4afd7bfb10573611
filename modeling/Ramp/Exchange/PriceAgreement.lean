import Ramp.Exchange.Answers
import Ramp.Exchange.Clearance
import Ramp.Exchange.Terms

/-! The price an offer shows is the price its execution reserves and reports. -/

namespace Ramp.Exchange

open Ramp.Billing Prog

variable {Blob : Type}

structure Service.MoneyLaws (s : Service Blob) : Prop where
  parse_format : ∀ d text, s.formatMoney d = .ok text → s.parseMoney text = .ok d
  format_ne_empty : ∀ d, s.formatMoney d ≠ .ok ""
  parse_decimal : ∀ text d, s.parseMoney text = .ok d → s.parseRat (s.decimalString d) = some d

def PricingDoc.quantity (doc : PricingDoc) : Int := max doc.estQty 1

def PricingDoc.charge (doc : PricingDoc) : Amount where
  value := doc.unitCost * doc.quantity
  currency := doc.currency

theorem maxInt32_one (n : Int) : maxInt32 n 1 = max n 1 := by
  unfold maxInt32
  split_ifs with h <;> omega

structure PricingDoc.SamePrice (doc paid : PricingDoc) : Prop where
  unitCost : paid.unitCost = doc.unitCost
  currency : paid.currency = doc.currency
  metering : paid.metering = doc.metering
  quantity : paid.quantity = doc.quantity

variable {doc paid : PricingDoc}

theorem PricingDoc.SamePrice.charge (h : doc.SamePrice paid) : paid.charge = doc.charge := by
  simp [PricingDoc.charge, h.unitCost, h.currency, h.quantity]

variable {s : Service Blob}

namespace Service

theorem MoneyLaws.moneyOrZero {d : ℚ} {text : String} (laws : s.MoneyLaws)
    (h : s.formatMoney d = .ok text) : s.moneyOrZero text = .ok d := by
  have hne : text ≠ "" := by
    rintro rfl
    exact laws.format_ne_empty d h
  rw [Service.moneyOrZero, if_neg hne, laws.parse_format d text h]

theorem MoneyLaws.pricingDocFromPricing {issuer : OfferIssuer} {rate unitCost : String}
    (laws : s.MoneyLaws) (hrate : s.formatMoney doc.rate = .ok rate)
    (hunit : s.formatMoney doc.unitCost = .ok unitCost) :
    ∃ paid, s.pricingDocFromPricing (offerPricing issuer doc rate unitCost) = .ok paid ∧
      doc.SamePrice paid := by
  refine ⟨{ doc with
    model := issuer.modelName doc.model
    estQty := if doc.estQty > 0 then doc.estQty else 0 }, ?_, rfl, rfl, rfl, ?_⟩
  · simp only [Service.pricingDocFromPricing, offerPricing, laws.moneyOrZero hrate,
      laws.moneyOrZero hunit]
    rfl
  · simp only [PricingDoc.quantity]
    split_ifs <;> omega

end Service

variable {price : Amount} {r : BillingResolution} {shown : String}

def Charges (price : Amount) : Op Blob → Prop
  | .authorize req => totalCharge req.unitCost req.quantity = price
  | _ => True

theorem Op.Quiet.charges {op : Op Blob} (h : op.Quiet) (price : Amount) : Charges price op := by
  cases op <;> trivial

/-- Whatever the calls reply, `x` reserves `price` at most and a result satisfies `P`. -/
abbrev Prices {α : Type} (price : Amount) (P : α → Prop) (x : Svc Blob α) : Prop :=
  Yields (tracked fun _ _ _ => ()) (fun _ => Charges price) (fun _ => P) x ()

theorem Prices.only {α : Type} {x : Svc Blob α} (hx : Only Op.Quiet x.run) :
    Prices price (fun _ => True) x :=
  Does.any (hx.mono fun _ hop => hop.charges price)

def Reports (s : Service Blob) (doc : PricingDoc) (result : TransactionResultItem) : Prop :=
  ∀ cost, result.cost = some cost → s.parseMoney cost.amount = .ok doc.charge.value ∧
    cost.currency = doc.charge.currency ∧
    ∃ unitCost, cost.unitCost = some unitCost ∧ s.parseMoney unitCost = .ok doc.unitCost

namespace Service

theorem charges_passes {P : Op Blob → Prop} (h : ∀ op, P op → Charges price op) :
    Passes (tracked fun (op : Op Blob) _ (_ : Res op) => ()) (fun _ => Charges price)
      (fun _ => True) P where
  allows _ op _ hop := h op hop
  keeps _ _ _ _ _ _ _ := trivial

theorem clearBatchItem_prices (price : Amount) (ctx : RequestContext) (req : TransactionRequest)
    (item : TransactionItem) (agent : ResolvedAgent) (correlation : RequestCorrelation) :
    Prices price (fun input => s.pricingDocFromPricing item.offer.pricing =
      .ok input.resolved.pricing) (s.clearBatchItem ctx req item agent correlation) := by
  have hcatalog : ∀ op : Op Blob, op.Catalog → Charges price op := fun op h => by
    cases op <;> trivial
  refine (s.clearBatchItem_spec (charges_passes hcatalog) ctx req item agent correlation
    (fun _ => charges_passes fun op hop => hop.charges price) trivial).mono (fun _ _ h => h) ?_
  exact fun _ r h input hr => (h.2.2 input hr).pricing

theorem authorizeBilling_charges (laws : s.MoneyLaws)
    (hshown : s.parseMoney shown = .ok r.pricing.unitCost) :
    Only (Charges r.pricing.charge) (s.authorizeBilling r).run := by
  have hqty : (if r.pricing.estQty ≤ 0 then 1 else r.pricing.estQty) = r.pricing.quantity := by
    unfold PricingDoc.quantity
    split_ifs <;> omega
  unfold authorizeBilling
  simp only [laws.parse_decimal shown _ hshown]
  refine .ask ?_ fun reply => ?_
  · simp [Charges, totalCharge, PricingDoc.charge, hqty]
  · cases reply with
    | err e _ => exact .throw
    | result res =>
      dsimp only
      split_ifs
      · exact .pure
      · exact .throw

theorem resolveBilling_charges (laws : s.MoneyLaws) (hr : r.pricing = doc)
    (hshown : s.parseMoney shown = .ok doc.unitCost) :
    Only (Charges doc.charge) (s.resolveBilling r).run := by
  subst hr
  unfold resolveBilling
  split_ifs
  · exact .throw
  · refine .seq ?_ fun _ => authorizeBilling_charges laws hshown
    exact (checkAccountActive_quiet r.billingRef).mono fun op hop => hop.charges _

theorem buildBatchResultItem_reports (laws : s.MoneyLaws) (item : TransactionItem)
    (transactionID billingID : String) (signed : SignedURL) (doc : PricingDoc)
    (plan : ObligationPlan) :
    Reports s doc (s.buildBatchResultItem item transactionID billingID signed doc plan) := by
  intro cost hcost
  simp only [buildBatchResultItem, maxInt32_one] at hcost
  split at hcost
  next amount unitCost hamount hunit =>
    cases hcost
    exact ⟨laws.parse_format _ _ hamount, rfl, unitCost, rfl, laws.parse_format _ _ hunit⟩
  · cases hcost

theorem releaseHold_charges (price : Amount) (billingID key : String) :
    Only (Charges price) (releaseHold billingID key : Svc Blob Unit).run := by
  unfold releaseHold
  split_ifs
  · exact .pure
  · exact .ask trivial fun _ => .pure

theorem abandonHold_charges (price : Amount) (e : Error) (billingID key : String) :
    Only (Charges price) (abandonHold e billingID key : Svc Blob Unit).run := by
  unfold abandonHold releaseDuplicateLossHold
  split_ifs
  · exact .pure
  · refine .ask trivial fun found => ?_
    cases found with
    | found row =>
      dsimp only
      split_ifs
      · exact .pure
      · exact releaseHold_charges price billingID key
    | notFound => exact .pure
    | err e => exact .pure
  · exact releaseHold_charges price billingID key

theorem persistTransaction_charges (price : Amount) (p : PersistInput Blob) :
    Only (Charges price) (s.persistTransaction p).run := by
  have hintent : Only (Charges price) (s.buildPersistIntent p).run := by
    unfold buildPersistIntent
    split
    · exact .throw
    · exact .ask trivial fun _ => .ask trivial fun _ => .pure
  refine .seq hintent fun intent => .ask trivial fun reply => ?_
  cases reply with
  | failed e _ => exact .throw
  | committed row => exact .pure

theorem commitItem_prices {p : PersistInput Blob} {free : Bool} {result : TransactionResultItem}
    {P : TransactionResultItem → Prop} (h : P result) :
    Prices price P (s.commitItem p free result) := by
  refine Spec.attempt (Does.any (persistTransaction_charges price p)) fun _ r _ => ?_
  cases r with
  | error e =>
    refine Yields.seq (Does.any (abandonHold_charges price e _ _)) fun _ _ _ => ?_
    exact Yields.throw
  | ok row =>
    split_ifs
    · exact Yields.pure h
    · exact Does.tell trivial fun _ => Yields.pure h

theorem deliverItem_prices (laws : s.MoneyLaws) (price : Amount) (input : BatchItemBilling)
    (free : Bool) (auth : AuthorizeResult) :
    Prices price (Reports s input.resolved.pricing) (s.deliverItem input free auth) := by
  refine Spec.attempt (Prices.only (s.mintSignedURL_quiet _ _ _)) fun _ signed _ => ?_
  cases signed with
  | error e =>
    refine Yields.seq (Does.any (releaseHold_charges price _ _)) fun _ _ _ => ?_
    exact Yields.throw
  | ok signed =>
    refine Does.tell trivial fun transactionID => ?_
    dsimp only
    split
    · refine Yields.seq (Does.any (releaseHold_charges price _ _)) fun _ _ _ => ?_
      exact Yields.throw
    · exact commitItem_prices (buildBatchResultItem_reports laws _ _ _ _ _ _)

theorem runBatchItemBilling_prices (laws : s.MoneyLaws) {input : BatchItemBilling}
    (hshown : s.parseMoney shown = .ok input.resolved.pricing.unitCost) :
    Prices input.resolved.pricing.charge (Reports s input.resolved.pricing)
      (s.runBatchItemBilling input) := by
  unfold runBatchItemBilling
  split_ifs
  · exact deliverItem_prices laws _ input true {}
  · refine .seq (Does.any ?_) fun _ auth _ => deliverItem_prices laws _ input false auth
    exact resolveBilling_charges laws rfl hshown

end Service

theorem Service.pricingDocFromTerm_ok {t : Option TermRef} (h : s.pricingDocFromTerm t = .ok doc) :
    ∃ r pricing, t = some r ∧ r.term.pricing = some pricing ∧
      s.pricingDocFromPricing pricing = .ok doc := by
  unfold pricingDocFromTerm at h
  split at h
  · cases h
  next pricing hpricing =>
    obtain ⟨r, hr, hpricing⟩ := Option.bind_eq_some_iff.mp hpricing
    exact ⟨r, pricing, hr, hpricing, h⟩

theorem Service.executeBatchItem_prices (laws : s.MoneyLaws) {item : TransactionItem}
    (hpaid : s.pricingDocFromPricing item.offer.pricing = .ok paid) (hsame : doc.SamePrice paid)
    (hshown : s.parseMoney shown = .ok doc.unitCost) (ctx : RequestContext)
    (req : TransactionRequest) (agent : ResolvedAgent) (correlation : RequestCorrelation) :
    Prices doc.charge (fun r => Reports s doc r.1)
      (s.executeBatchItem ctx req item agent correlation) := by
  refine .seq (clearBatchItem_prices doc.charge ctx req item agent correlation)
    fun _ input hinput => ?_
  obtain rfl : paid = input.resolved.pricing := Except.ok.inj (hpaid.symm.trans hinput)
  rw [← hsame.unitCost] at hshown
  have hrun := runBatchItemBilling_prices laws hshown
  rw [hsame.charge] at hrun
  refine .seq hrun fun _ result hresult => .pure fun cost hcost => ?_
  have hreports := hresult cost hcost
  rwa [hsame.charge, hsame.unitCost] at hreports

/-- An offer states the price of the first term its requester may have, and an
execution of it reserves and reports that price, whatever the calls reply. -/
theorem offer_charges_headline (laws : s.MoneyLaws) {issuer : OfferIssuer} {entry : CatalogEntry}
    {title : Option String} {stored : List (Option TermRef)} {requester : Option (List String)}
    {profiles : List String} {offerID : String} {now : Time} {offer : Offer}
    (hoffer : s.buildOffer issuer entry title stored requester profiles offerID now =
      .ok (some offer)) :
    ∃ before headline pricing doc, Headline stored requester before (some headline) ∧
      headline.term.pricing = some pricing ∧ s.pricingDocFromPricing pricing = .ok doc ∧
      (∃ paid, s.pricingDocFromPricing offer.pricing = .ok paid ∧ doc.SamePrice paid) ∧
      (∃ shown, offer.pricing.unitCost = some shown ∧ s.parseMoney shown = .ok doc.unitCost ∧
        offer.pricing.currency = doc.currency) ∧
      ∀ ctx req item agent correlation, item.offer = offer →
        Prices doc.charge (fun r => Reports s doc r.1)
          (s.executeBatchItem ctx req item agent correlation) := by
  obtain ⟨before, t, doc, rate, shown, hhead, hdoc, hrate, hunit, hpricing⟩ :=
    Service.buildOffer_ok hoffer
  obtain ⟨headline, pricing, rfl, hterm, hread⟩ := Service.pricingDocFromTerm_ok hdoc
  obtain ⟨paid, hpaid, hsame⟩ := laws.pricingDocFromPricing hrate hunit
  rw [← hpricing] at hpaid
  have hshown := laws.parse_format _ _ hunit
  refine ⟨before, headline, pricing, doc, hhead, hterm, hread, ⟨paid, hpaid, hsame⟩,
    ⟨shown, by rw [hpricing]; rfl, hshown, by rw [hpricing]; rfl⟩, ?_⟩
  rintro ctx req item agent correlation rfl
  exact Service.executeBatchItem_prices laws hpaid hsame hshown ctx req agent correlation

def wholeService : Service Payload :=
  { plainService with
    parseMoney text :=
      if text = "" then .error "empty" else .ok (Nat.ofDigitChars 10 text.toList 0 : ℚ)
    formatMoney d :=
      if d.den = 1 ∧ 0 ≤ d.num then .ok (toString d.num.toNat) else .error "not a whole amount"
    decimalString d := toString d.num.toNat
    parseRat text := some (Nat.ofDigitChars 10 text.toList 0) }

theorem wholeService_laws : wholeService.MoneyLaws where
  parse_format d text h := by
    simp only [wholeService] at h ⊢
    split_ifs at h with hwhole
    cases h
    have hnum : ((d.num.toNat : Int) : ℚ) = d := by
      rw [Int.toNat_of_nonneg hwhole.2]
      exact Rat.coe_int_num_of_den_eq_one hwhole.1
    have hparsed : ((d.num.toNat : Nat) : ℚ) = d := by exact_mod_cast hnum
    simpa using hparsed
  format_ne_empty d h := by
    simp only [wholeService] at h
    split_ifs at h
    exact toString_nat_ne_empty _ (Except.ok.inj h)
  parse_decimal text d h := by
    simp only [wholeService] at h ⊢
    split_ifs at h
    cases h
    simp

def plainIssuer : OfferIssuer where
  offerTTL := 300
  modelName name := name
  otherFields _ _ _ _ _ := ""
  signOffer _ := .ok "sig"

def twoTerms : List (Option TermRef) :=
  [some ⟨0, ⟨["news:premium"], some ⟨"PER_UNIT", "2", "USD", none, "page", 0, none⟩, [], [], []⟩⟩,
   some ⟨1, ⟨[], some ⟨"PER_UNIT", "5", "USD", none, "page", 3, none⟩, [], [], []⟩⟩]

def publicOffer : Offer :=
  ⟨"offer", "sig", "https://pub.example/a",
    ⟨"PER_UNIT", "5", "USD", some "5", "page", 3, none⟩, none, ""⟩

theorem publicOffer_built : wholeService.buildOffer plainIssuer plainSurroundings.entry none
    twoTerms (some ["sport:*"]) [] "offer" 0 = .ok (some publicOffer) := rfl

theorem offer_charges_headline_three_pages : ∃ doc : PricingDoc, doc.charge = ⟨15, "USD"⟩ ∧
    ∀ ctx req agent correlation, Prices doc.charge (fun r => Reports wholeService doc r.1)
      (wholeService.executeBatchItem ctx req ⟨publicOffer, "key 1"⟩ agent correlation) := by
  obtain ⟨-, -, -, doc, -, -, -, ⟨paid, hpaid, hsame⟩, -, hprices⟩ :=
    offer_charges_headline wholeService_laws publicOffer_built
  refine ⟨doc, ?_, fun ctx req agent correlation => hprices ctx req _ agent correlation rfl⟩
  have hread : wholeService.pricingDocFromPricing publicOffer.pricing =
      .ok ⟨"PER_UNIT", 5, "USD", 5, "page", 3, none⟩ := rfl
  obtain rfl := Except.ok.inj (hpaid.symm.trans hread)
  rw [← hsame.charge]
  decide +kernel

end Ramp.Exchange
