import Mathlib.Data.List.MinMax
import Mathlib.Data.List.Sort
import Ramp.Data.Table
import Ramp.Data.Text
import Ramp.Exchange.Wire

/-! The entries of the catalog, how they are checked and stored, and the snapshot that is served
from them. -/

namespace Ramp.Catalog

open Ramp.Exchange

abbrev LicenseTerm := String

/-- `extension` holds the metadata fields that the entry carries beside its own. -/
structure ResourceEntry where
  domain : String
  path : String
  contentID : String := ""
  title : String := ""
  terms : List LicenseTerm := []
  extension : String := ""

structure CatalogEntry where
  resourceID : String
  tenantID : String
  uri : String
  uriPrefix : String
  pricingJSON : String
  termsJSON : String
  deliveryMethod : String
  metadataJSON : Option String
  resourceOwnerID : String
  title : Option String
  deriving DecidableEq

inductive RejectionReason
  | notInContributors
  | invalidTerms
  | unknownPublisherDomain
  | missingResourceOwner
  | tenantMismatch
  | invalidEntry
  | uriOwnedByOther
  | uriMoved
  deriving DecidableEq

def RejectionReason.text : RejectionReason → String
  | notInContributors => "caller_not_in_catalog_contributors"
  | invalidTerms => "invalid_license_terms"
  | unknownPublisherDomain => "unknown_publisher_domain"
  | missingResourceOwner => "missing_resource_owner_id"
  | tenantMismatch => "tenant_mismatch"
  | invalidEntry => "invalid_entry"
  | uriOwnedByOther => "uri_owned_by_other_resource"
  | uriMoved => "uri_immutable_for_resource"

structure CatalogPushRejection where
  uri : String
  reason : RejectionReason
  detail : String := ""

def reject (uri : String) (reason : RejectionReason) : CatalogPushRejection := { uri, reason }

def CatalogPushRejection.format (r : CatalogPushRejection) : String :=
  if r.detail = "" then r.uri ++ " (" ++ r.reason.text ++ ")"
  else r.uri ++ " (" ++ r.reason.text ++ ": " ++ r.detail ++ ")"

def formatRejections (rejections : List CatalogPushRejection) : String :=
  "; ".intercalate (rejections.map CatalogPushRejection.format)

abbrev Manifest := String

structure CatalogService where
  protocolVersion : String
  catalogURIScheme : String
  exchangeDomain : String
  supportedProfiles : List String
  normalizeResourceEntry : ResourceEntry → ResourceEntry
  /-- The warnings on a term, or the message of the first violated rule. -/
  validateLicenseTerm : LicenseTerm → Except String (List String)
  marshalTerm : LicenseTerm → Except String String
  marshalResourceMetadata : ResourceEntry → Except String (Option String)
  decodeTerms : String → Except String (List LicenseTerm)
  decodeResourceMetadata : String → Except String String
  renderCompProfile : LicenseTerm → String → Nat → Option String → Except String String
  authorizesContributor : Manifest → String → Bool
  resourceOwnerID : Manifest → String → Option String

def namespaceResourceID (tenantID contentID uri : String) : String :=
  tenantID ++ ":" ++ (if contentID = "" then uri else contentID)

def titleOrNil (title : String) : Option String := if title = "" then none else some title

def legacyPricingSentinel : String := "\x7b\x7d"

namespace CatalogService

variable (s : CatalogService)

def marshalTermsFrom : Nat → List LicenseTerm → Except String (List String)
  | _, [] => .ok []
  | i, t :: ts =>
    match s.marshalTerm t with
    | .error e => .error (s!"marshal term {i}: " ++ e)
    | .ok elem => (marshalTermsFrom (i + 1) ts).map (elem :: ·)

def marshalTerms (terms : List LicenseTerm) : Except String String :=
  (s.marshalTermsFrom 0 terms).map fun elems => "[" ++ ",".intercalate elems ++ "]"

def uriFromEntry (e : ResourceEntry) : String :=
  if e.domain = "" ∧ e.path = "" then "" else s.catalogURIScheme ++ "://" ++ e.domain ++ e.path

def entryFromProto (tenantID : String) (e : ResourceEntry) : Except String CatalogEntry :=
  if e.domain = "" ∨ e.path = "" then .error "missing domain/path"
  else
    let uri := s.catalogURIScheme ++ "://" ++ e.domain ++ e.path
    match s.marshalTerms e.terms with
    | .error err => .error ("marshal terms: " ++ err)
    | .ok terms =>
      match s.marshalResourceMetadata e with
      | .error err => .error ("marshal metadata: " ++ err)
      | .ok metadata =>
        .ok
          { resourceID := namespaceResourceID tenantID e.contentID uri
            tenantID
            uri
            uriPrefix := uri
            pricingJSON := legacyPricingSentinel
            termsJSON := terms
            deliveryMethod := "INSTRUCTIONS"
            metadataJSON := metadata
            resourceOwnerID := ""
            title := titleOrNil e.title }

def validateEntryTerms (uri : String) :
    List LicenseTerm → Except CatalogPushRejection (List String)
  | [] => .ok []
  | term :: terms =>
    match s.validateLicenseTerm term with
    | .error message => .error { reject uri .invalidTerms with detail := message }
    | .ok termWarnings => (validateEntryTerms uri terms).map (termWarnings ++ ·)

end CatalogService

structure CatalogEntry.Scoped (row : CatalogEntry) : Prop where
  tenant : ∃ key, row.resourceID = row.tenantID ++ ":" ++ key
  uriPrefix : row.uriPrefix = row.uri

variable {s : CatalogService}

theorem CatalogService.entryFromProto_scoped {tenantID : String}
    {e : ResourceEntry} {row : CatalogEntry} (h : s.entryFromProto tenantID e = .ok row) :
    row.Scoped ∧ row.tenantID = tenantID ∧
      row.uri = s.catalogURIScheme ++ "://" ++ e.domain ++ e.path := by
  unfold entryFromProto at h
  split_ifs at h
  split at h
  · cases h
  split at h
  · cases h
  cases h
  exact ⟨⟨⟨_, rfl⟩, rfl⟩, rfl, rfl⟩

def termsOrEmpty (terms : String) : String := if terms = "" then "[]" else terms

def CatalogEntry.stored (e : CatalogEntry) : CatalogEntry :=
  { e with termsJSON := termsOrEmpty e.termsJSON }

def CatalogEntry.address (e : CatalogEntry) : String × String := (e.resourceID, e.uri)

@[simp] theorem CatalogEntry.stored_address (e : CatalogEntry) : e.stored.address = e.address := rfl

theorem CatalogEntry.Scoped.stored {e : CatalogEntry} (h : e.Scoped) : e.stored.Scoped :=
  ⟨h.tenant, h.uriPrefix⟩

inductive UpsertError
  | uriImmutable
  | uniqueViolation
  deriving DecidableEq

/-- The table `catalog`: `resource_id` is its key and `uri` is unique. -/
abbrev Rows := List CatalogEntry

namespace Rows

def upsertCatalogEntry (rows : Rows) (e : CatalogEntry) : Except UpsertError Rows :=
  match rows.find? (fun row => row.resourceID = e.resourceID) with
  | some row =>
    if row.uri = e.uri then
      .ok (rows.map fun row => if row.resourceID = e.resourceID then e.stored else row)
    else .error .uriImmutable
  | none =>
    if rows.any (fun row => row.uri = e.uri) then .error .uniqueViolation
    else .ok (rows ++ [e.stored])

def upsertAll (rows : Rows) : List CatalogEntry → Except UpsertError Rows
  | [] => .ok rows
  | e :: es =>
    match rows.upsertCatalogEntry e with
    | .error err => .error err
    | .ok rows' => upsertAll rows' es

def precedes (a b : CatalogEntry) : Prop :=
  a.tenantID < b.tenantID ∨ a.tenantID = b.tenantID ∧ a.uriPrefix ≤ b.uriPrefix

instance : DecidableRel precedes := fun _ _ => inferInstanceAs (Decidable (_ ∨ _))

def listAllCatalog (rows : Rows) : List CatalogEntry := rows.insertionSort precedes

structure Sound (rows : Rows) : Prop where
  ids : (rows.map (·.resourceID)).Nodup
  uris : (rows.map (·.uri)).Nodup
  inTenant : ∀ row ∈ rows, row.Scoped

theorem Sound.nil : Sound [] := ⟨List.nodup_nil, List.nodup_nil, by simp⟩

variable {rows rows' : Rows} {a b e : CatalogEntry} {es : List CatalogEntry}

theorem Sound.eq_of_resourceID (h : rows.Sound) (ha : a ∈ rows) (hb : b ∈ rows)
    (hid : a.resourceID = b.resourceID) : a = b :=
  List.inj_on_of_nodup_map h.ids ha hb hid

theorem Sound.eq_of_uri (h : rows.Sound) (ha : a ∈ rows) (hb : b ∈ rows) (huri : a.uri = b.uri) :
    a = b :=
  List.inj_on_of_nodup_map h.uris ha hb huri

@[simp] theorem mem_listAllCatalog {row : CatalogEntry} : row ∈ rows.listAllCatalog ↔ row ∈ rows :=
  (List.perm_insertionSort _ rows).mem_iff

theorem Sound.listAllCatalog (h : rows.Sound) : Sound rows.listAllCatalog := by
  have hperm : rows.listAllCatalog.Perm rows := List.perm_insertionSort _ rows
  exact ⟨(hperm.map _).nodup_iff.mpr h.ids, (hperm.map _).nodup_iff.mpr h.uris,
    fun row hm => h.inTenant row (mem_listAllCatalog.mp hm)⟩

theorem upsertCatalogEntry_cases (h : rows.upsertCatalogEntry e = .ok rows') :
    (∃ row ∈ rows, row.resourceID = e.resourceID ∧ row.uri = e.uri ∧
      rows' = rows.map fun row => if row.resourceID = e.resourceID then e.stored else row) ∨
    ((∀ row ∈ rows, row.resourceID ≠ e.resourceID) ∧ (∀ row ∈ rows, row.uri ≠ e.uri) ∧
      rows' = rows ++ [e.stored]) := by
  unfold upsertCatalogEntry at h
  split at h
  next row hfind =>
    split_ifs at h with huri
    cases h
    have hid := List.find?_some hfind
    exact .inl ⟨row, List.mem_of_find?_eq_some hfind, by simpa using hid, huri, rfl⟩
  next hfind =>
    split_ifs at h with huri
    cases h
    refine .inr ⟨by simpa using hfind, ?_, rfl⟩
    simpa using huri

theorem Sound.upsertCatalogEntry (hs : rows.Sound) (he : e.Scoped)
    (h : rows.upsertCatalogEntry e = .ok rows') : Sound rows' := by
  rcases upsertCatalogEntry_cases h with ⟨old, hold, hid, huri, rfl⟩ | ⟨hid, huri, rfl⟩
  · have hids : (rows.map fun row => if row.resourceID = e.resourceID then e.stored else row).map
        (·.resourceID) = rows.map (·.resourceID) := by
      rw [List.map_map]
      refine List.map_congr_left fun row hm => ?_
      by_cases hrow : row.resourceID = e.resourceID
      · simp [hrow, CatalogEntry.stored]
      · simp [hrow]
    have huris : (rows.map fun row => if row.resourceID = e.resourceID then e.stored else row).map
        (·.uri) = rows.map (·.uri) := by
      rw [List.map_map]
      refine List.map_congr_left fun row hm => ?_
      by_cases hrow : row.resourceID = e.resourceID
      · obtain rfl := hs.eq_of_resourceID hm hold (hrow.trans hid.symm)
        simp [hrow, CatalogEntry.stored, huri]
      · simp [hrow]
    refine ⟨hids ▸ hs.ids, huris ▸ hs.uris, fun row hm => ?_⟩
    obtain ⟨row', hm', rfl⟩ := List.mem_map.mp hm
    split_ifs
    · exact he.stored
    · exact hs.inTenant row' hm'
  · refine ⟨?_, ?_, fun row hm => ?_⟩
    · rw [List.map_append, List.nodup_append]
      refine ⟨hs.ids, by simp, ?_⟩
      simpa [CatalogEntry.stored] using hid
    · rw [List.map_append, List.nodup_append]
      refine ⟨hs.uris, by simp, ?_⟩
      simpa [CatalogEntry.stored] using huri
    · rcases List.mem_append.mp hm with hm | hm
      · exact hs.inTenant row hm
      · obtain rfl := List.mem_singleton.mp hm
        exact he.stored

theorem Sound.upsertAll (hs : rows.Sound) (hes : ∀ e ∈ es, e.Scoped)
    (h : rows.upsertAll es = .ok rows') : Sound rows' := by
  induction es generalizing rows with
  | nil =>
    cases h
    exact hs
  | cons e es ih =>
    unfold Rows.upsertAll at h
    split at h
    · cases h
    next mid hmid =>
      exact ih (hs.upsertCatalogEntry (hes e List.mem_cons_self) hmid)
        (fun e' hm => hes e' (List.mem_cons_of_mem _ hm)) h

/-- The table has a row for the resource of `e` under the uri of `e`. -/
def Holds (rows : Rows) (e : CatalogEntry) : Prop := ∃ row ∈ rows, row.address = e.address

theorem holds_of_mem (h : e ∈ rows) : rows.Holds e := ⟨e, h, rfl⟩

theorem upsertCatalogEntry_holds (h : rows.upsertCatalogEntry e = .ok rows') : rows'.Holds e := by
  rcases upsertCatalogEntry_cases h with ⟨old, hold, hid, huri, rfl⟩ | ⟨hid, huri, rfl⟩
  · exact ⟨e.stored, List.mem_map.mpr ⟨old, hold, if_pos hid⟩, rfl⟩
  · exact ⟨e.stored, by simp, rfl⟩

theorem Holds.upsertCatalogEntry {e' : CatalogEntry} (hs : rows.Sound) (he : rows.Holds e')
    (h : rows.upsertCatalogEntry e = .ok rows') : rows'.Holds e' := by
  obtain ⟨row, hm, haddr⟩ := he
  rcases upsertCatalogEntry_cases h with ⟨old, hold, hid, huri, rfl⟩ | ⟨hid, huri, rfl⟩
  · by_cases hrow : row.resourceID = e.resourceID
    · obtain rfl := hs.eq_of_resourceID hm hold (hrow.trans hid.symm)
      refine ⟨e.stored, List.mem_map.mpr ⟨row, hm, if_pos hrow⟩, ?_⟩
      rw [← haddr, CatalogEntry.stored_address]
      exact Prod.ext hrow.symm huri.symm
    · exact ⟨row, List.mem_map.mpr ⟨row, hm, if_neg hrow⟩, haddr⟩
  · exact ⟨row, List.mem_append_left _ hm, haddr⟩

theorem upsertAll_holds (hs : rows.Sound) (hes : ∀ e ∈ es, e.Scoped)
    (h : rows.upsertAll es = .ok rows') :
    (∀ e, rows.Holds e → rows'.Holds e) ∧ ∀ e ∈ es, rows'.Holds e := by
  induction es generalizing rows with
  | nil =>
    cases h
    exact ⟨fun _ he => he, by simp⟩
  | cons e es ih =>
    unfold Rows.upsertAll at h
    split at h
    · cases h
    next mid hmid =>
      obtain ⟨hkeep, hnew⟩ := ih (hs.upsertCatalogEntry (hes e List.mem_cons_self) hmid)
        (fun e' hm => hes e' (List.mem_cons_of_mem _ hm)) h
      refine ⟨fun e' he' => hkeep e' (he'.upsertCatalogEntry hs hmid), fun e' hm => ?_⟩
      rcases List.mem_cons.mp hm with rfl | hm
      · exact hkeep e' (upsertCatalogEntry_holds hmid)
      · exact hnew e' hm

end Rows

structure CatalogSnapshot where
  trie : Table String CatalogEntry
  byURI : Table String CatalogEntry
  tenant : Table String String
  terms : Table String (List LicenseTerm)
  metadata : Table String String
  rendered : Table String (Table Nat (Table String String))

def newEmptySnapshot : CatalogSnapshot := ⟨∅, ∅, ∅, ∅, ∅, ∅⟩

def longestPrefix (t : Table String CatalogEntry) (uri : String) : Option CatalogEntry :=
  ((t.entries.filter fun e => e.1.toList.isPrefixOf uri.toList).argmax
    fun e => e.1.toList.length).map (·.2)

namespace CatalogSnapshot

def lookup (snap : CatalogSnapshot) (uri : String) : Option CatalogEntry :=
  longestPrefix snap.trie uri

def decodedTerms (snap : CatalogSnapshot) (resourceID : String) : List LicenseTerm :=
  (snap.terms.get? resourceID).getD []

end CatalogSnapshot

def profileCoMPV1 : String := "ramp-comp-v1"

namespace CatalogService

variable (s : CatalogService)

def decodeRowTerms (row : CatalogEntry) : List LicenseTerm :=
  if row.termsJSON = "" then []
  else
    match s.decodeTerms row.termsJSON with
    | .error _ => []
    | .ok terms => terms

def decodeRowMetadata (row : CatalogEntry) : Option String :=
  match row.metadataJSON with
  | none => none
  | some raw =>
    if raw = "" then none
    else
      match s.decodeResourceMetadata raw with
      | .error _ => none
      | .ok md => some md

def renderTerm (resourceID : String) (md : Option String)
    (byIndex : Table Nat (Table String String)) (i : LicenseTerm × Nat) :
    Table Nat (Table String String) :=
  match s.renderCompProfile i.1 resourceID i.2 md with
  | .error _ => byIndex
  | .ok rendered => byIndex.insert i.2 (Table.insert ∅ profileCoMPV1 rendered)

def renderRowProfiles (snap : CatalogSnapshot) (resourceID : String) : CatalogSnapshot :=
  if profileCoMPV1 ∈ s.supportedProfiles then
    let md := snap.metadata.get? resourceID
    let byIndex := (snap.decodedTerms resourceID).zipIdx.foldl (s.renderTerm resourceID md) ∅
    if byIndex.entries = [] then snap
    else { snap with rendered := snap.rendered.insert resourceID byIndex }
  else snap

def cacheMetadata (snap : CatalogSnapshot) (row : CatalogEntry) : CatalogSnapshot :=
  match s.decodeRowMetadata row with
  | none => snap
  | some md => { snap with metadata := snap.metadata.insert row.resourceID md }

def addRow (snap : CatalogSnapshot) (row : CatalogEntry) : CatalogSnapshot :=
  let indexed : CatalogSnapshot :=
    { snap with
      trie := snap.trie.insert row.uriPrefix row
      byURI := snap.byURI.insert row.uri row
      tenant := snap.tenant.insert row.resourceID row.tenantID
      terms := snap.terms.insert row.resourceID (s.decodeRowTerms row) }
  s.renderRowProfiles (s.cacheMetadata indexed row) row.resourceID

def buildSnapshot (rows : List CatalogEntry) : CatalogSnapshot :=
  rows.foldl s.addRow newEmptySnapshot

variable {s}

theorem renderRowProfiles_index (snap : CatalogSnapshot) (resourceID : String) :
    (s.renderRowProfiles snap resourceID).trie = snap.trie ∧
      (s.renderRowProfiles snap resourceID).byURI = snap.byURI ∧
      (s.renderRowProfiles snap resourceID).tenant = snap.tenant := by
  unfold renderRowProfiles
  dsimp only
  split_ifs <;> exact ⟨rfl, rfl, rfl⟩

theorem cacheMetadata_index (snap : CatalogSnapshot) (row : CatalogEntry) :
    (s.cacheMetadata snap row).trie = snap.trie ∧ (s.cacheMetadata snap row).byURI = snap.byURI ∧
      (s.cacheMetadata snap row).tenant = snap.tenant := by
  unfold cacheMetadata
  split <;> exact ⟨rfl, rfl, rfl⟩

variable (rows : List CatalogEntry)
include rows

theorem buildSnapshot_trie : (s.buildSnapshot rows).trie = Table.index (·.uriPrefix) id rows := by
  refine (List.foldl_hom CatalogSnapshot.trie fun snap row => ?_).symm
  rw [addRow, (renderRowProfiles_index _ _).1, (cacheMetadata_index _ _).1]
  rfl

theorem buildSnapshot_byURI : (s.buildSnapshot rows).byURI = Table.index (·.uri) id rows := by
  refine (List.foldl_hom CatalogSnapshot.byURI fun snap row => ?_).symm
  rw [addRow, (renderRowProfiles_index _ _).2.1, (cacheMetadata_index _ _).2.1]
  rfl

theorem buildSnapshot_tenant :
    (s.buildSnapshot rows).tenant = Table.index (·.resourceID) (·.tenantID) rows := by
  refine (List.foldl_hom CatalogSnapshot.tenant fun snap row => ?_).symm
  rw [addRow, (renderRowProfiles_index _ _).2.2, (cacheMetadata_index _ _).2.2]

end CatalogService

variable {t : Table String CatalogEntry} {uri : String} {row : CatalogEntry}
  {rows : List CatalogEntry}

theorem longestPrefix_mem (h : longestPrefix t uri = some row) : ∃ key, t.get? key = some row := by
  obtain ⟨e, he, rfl⟩ := Option.map_eq_some_iff.mp h
  have hm := List.mem_of_mem_filter (List.argmax_mem he)
  exact ⟨e.1, Table.mem_entries hm⟩

theorem longestPrefix_of_get? (h : t.get? uri = some row) : longestPrefix t uri = some row := by
  let hits := t.entries.filter fun e => e.1.toList.isPrefixOf uri.toList
  have hself : (⟨uri, row⟩ : Sigma fun _ : String => CatalogEntry) ∈ hits := by
    refine List.mem_filter.mpr ⟨AList.mem_lookup_iff.mp h, ?_⟩
    simp
  cases hbest : hits.argmax fun e => e.1.toList.length with
  | none =>
    rw [List.argmax_eq_none.mp hbest] at hself
    cases hself
  | some best =>
    have hmem := List.argmax_mem hbest
    have hlen := List.le_of_mem_argmax hself hbest
    obtain ⟨hentry, hpre⟩ := List.mem_filter.mp hmem
    have hkey : best.1 = uri :=
      String.toList_inj.mp ((List.isPrefixOf_iff_prefix.mp hpre).eq_of_length_le hlen)
    have hget := Table.mem_entries hentry
    rw [hkey, h] at hget
    change (hits.argmax _).map _ = _
    rw [hbest, Option.map_some, Option.some.inj hget]

structure CatalogSnapshot.Serves (snap : CatalogSnapshot) (row : CatalogEntry) : Prop where
  discoverable : snap.lookup row.uri = some row
  executable : snap.byURI.get? row.uri = some row
  owned : snap.tenant.get? row.resourceID = some row.tenantID

theorem CatalogService.buildSnapshot_serves {rows : Rows} (h : rows.Sound)
    (hm : row ∈ rows) : (s.buildSnapshot rows).Serves row := by
  have hkeys : rows.map (·.uriPrefix) = rows.map (·.uri) :=
    List.map_congr_left fun row hm => (h.inTenant row hm).uriPrefix
  refine ⟨longestPrefix_of_get? ?_, ?_, ?_⟩
  · rw [buildSnapshot_trie, ← (h.inTenant row hm).uriPrefix]
    exact Table.get?_index_of_mem (hkeys ▸ h.uris) hm
  · rw [buildSnapshot_byURI]
    exact Table.get?_index_of_mem h.uris hm
  · rw [buildSnapshot_tenant]
    exact Table.get?_index_of_mem h.ids hm

theorem CatalogService.mem_of_byURI
    (h : (s.buildSnapshot rows).byURI.get? uri = some row) : row ∈ rows ∧ row.uri = uri := by
  rw [buildSnapshot_byURI] at h
  obtain ⟨x, hx, hkey, rfl⟩ := Table.get?_index_eq_some h
  exact ⟨hx, hkey⟩

theorem CatalogService.mem_of_lookup
    (h : (s.buildSnapshot rows).lookup uri = some row) : row ∈ rows := by
  obtain ⟨key, hkey⟩ := longestPrefix_mem h
  rw [buildSnapshot_trie] at hkey
  obtain ⟨x, hx, -, rfl⟩ := Table.get?_index_eq_some hkey
  exact hx

end Ramp.Catalog
