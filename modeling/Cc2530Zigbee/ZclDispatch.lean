import Cc2530Zigbee.ZclWrite

/-!
# Global commands

`zcl_dispatch.c`: Default Response, the Write family without a writable attribute,
Read Attributes and Discover Attributes over one table. The table is not sorted, so
every discovery record is the result of a search for the smallest identifier from
`start` on; behind 0xFFFF there is none.
-/
namespace Zcl
open Octets

def commandDiscoverAttributes : UInt8 := 0x0c
def commandDiscoverResponse : UInt8 := 0x0d
def statusUnsupCommand : UInt8 := 0x81

def normalizedStatus (status : UInt8) : UInt8 :=
  if 0x82 ≤ status ∧ status ≤ 0x84 then statusUnsupCommand
  else if status = 0x8a ∨ status = 0xc4 then statusSuccess
  else if status = 0x8f then statusNotAuthorized
  else if status = 0x90 ∨ status = 0x91 ∨ status = 0x93 ∨ status = 0xc0 ∨ status = 0xc1 then 0x01
  else status

/-- One entry of the search: it is chosen when it is not below `start` and below the one chosen so far. -/
def chooseNext (start : UInt16) (chosen : Option Attribute) (current : Attribute) : Option Attribute :=
  if start ≤ current.id ∧ chosen.all (fun c => current.id < c.id) then some current else chosen

def nextAttribute (set : AttributeSet) (start : UInt16) : Option Attribute :=
  set.attributes.foldl (chooseNext start) none

/-- The records behind `payload` and the flag of the page: `budget` octets are left, and
`count` records were written. Each turn takes one attribute out of reach, so their number
is fuel enough. -/
def discoverRecords (set : AttributeSet) (maximum : Nat) : (fuel : Nat) → (start : UInt16) → (budget count : Nat) →
    (payload : Bytes) → Except Codec (UInt8 × Nat × Bytes)
  | 0, _, _, count, payload => .ok (1, count, payload)
  | fuel + 1, start, budget, count, payload =>
    match nextAttribute set start with
    | none => .ok (1, count, payload)
    | some a =>
      if count = maximum ∨ budget < 3 then
        if count = 0 ∧ maximum ≠ 0 then .error .bufferTooSmall else .ok (0, count, payload)
      else if ¬ valueTypeSupported a.value.type then .error .unsupportedDataType
      else
        let payload := payload ++ put16 a.id ++ [a.value.type]
        if a.id = 0xffff then .ok (1, count + 1, payload)
        else discoverRecords set maximum fuel (a.id + 1) (budget - 3) (count + 1) payload

def discover (set : AttributeSet) (request : Bytes) (reply : Header) (response : Bytes) (capacity : Nat)
    (info : DispatchInfo) : Codec × Bytes × DispatchInfo :=
  let info := { info with requestedCount := (byteAt request 2).toNat }
  let headerOctets := headerSize reply.flags
  if budget capacity < headerOctets + 1 then (.bufferTooSmall, response, info)
  else
    match discoverRecords set (byteAt request 2).toNat (set.attributes.length + 1) (u16At request 0)
        (budget capacity - (headerOctets + 1)) 0 [] with
    | .error e => (e, response, info)
    | .ok (complete, count, records) =>
      let reply := { reply with commandId := commandDiscoverResponse }
      match frameEncodeInto reply (complete :: records) response capacity 0 with
      | (.ok, response, length) =>
        (.ok, response,
          { info with
            length := length.toNat
            discoveryComplete := complete
            returnedCount := count
            commandId := reply.commandId })
      | (e, response, _) => (e, response, info)

/-- The Default Response that answers a command. -/
def defaultResponse (h : Header) (status : UInt8) (response : Bytes) (capacity : Nat) (info candidate : DispatchInfo) :
    Codec × Bytes × DispatchInfo :=
  let reply := { replyHeader h commandDefaultResponse with type := frameGlobal }
  match frameEncodeInto reply [h.commandId, status] response capacity 0 with
  | (.ok, response, length) =>
    (.ok, response,
      { candidate with
        length := length.toNat
        commandId := commandDefaultResponse
        defaultCommand := h.commandId
        defaultStatus := status
        defaultRawStatus := status })
  | (e, response, _) => (e, response, info)

/-- The commands that write. -/
def writeCommand (command : UInt8) : Bool :=
  command = commandWriteAttributes ∨ command = commandWriteUndivided ∨ command = commandWriteNoResponse

/-- The dispatcher behind the checks of table, frame and direction. -/
def dispatchFrame (set : AttributeSet) (frame : FrameInfo) (request response : Bytes) (capacity : Nat)
    (info : DispatchInfo) : Codec × Bytes × DispatchInfo :=
  let h := frame.header
  let payload := request.drop frame.payloadOffset
  let candidate := { DispatchInfo.zero with sequence := h.sequence }
  if h.type = frameGlobal ∧ h.commandId = commandDefaultResponse then
    if ¬ contextMatches set h then (.unsupportedContext, response, info)
    else if frame.payloadLength < 2 then (.truncated, response, info)
    else if set.manufacturerSpecific ≠ 0 ∧ frame.payloadLength ≠ 2 then (.unsupportedLayout, response, info)
    else
      (.ok, response,
        { candidate with
          kind := .defaultReceived
          commandId := commandDefaultResponse
          defaultCommand := byteAt payload 0
          defaultRawStatus := byteAt payload 1
          defaultStatus := normalizedStatus (byteAt payload 1) })
  else if contextMatches set h ∧ h.type = frameGlobal ∧ writeCommand h.commandId then
    match wrHandle set frame payload response capacity candidate none with
    | (.ok, response, candidate, _) => (.ok, response, candidate)
    | (e, response, _, _) => (e, response, info)
  else if h.type = frameGlobal ∧ h.commandId = commandWriteNoResponse then (.unsupportedNoResponse, response, info)
  else if contextMatches set h ∧ h.type = frameGlobal ∧ h.commandId = commandReadAttributes then
    match readAttrsUnicast set request response capacity ⟨0, 0, 0, 0⟩ with
    | (.ok, response, read) =>
      let candidate := { candidate with
        commandId := read.commandId
        length := read.length
        requestedCount := read.requestedCount
        returnedCount := read.returnedCount }
      (.ok, response,
        if read.commandId = commandDefaultResponse then
          { candidate with
            defaultCommand := commandReadAttributes
            defaultStatus := statusMalformedCommand
            defaultRawStatus := statusMalformedCommand }
        else candidate)
    | (e, response, _) => (e, response, info)
  else if contextMatches set h ∧ h.type = frameGlobal ∧ h.commandId = commandDiscoverAttributes then
    if frame.payloadLength < 3 then defaultResponse h statusMalformedCommand response capacity info candidate
    else if set.manufacturerSpecific ≠ 0 ∧ frame.payloadLength ≠ 3 then (.unsupportedLayout, response, info)
    else
      match discover set payload (replyHeader h h.commandId) response capacity candidate with
      | (.ok, response, candidate) => (.ok, response, candidate)
      | (e, response, _) => (e, response, info)
  else defaultResponse h statusUnsupCommand response capacity info candidate

def dispatchUnicast (set : AttributeSet) (request response : Bytes) (capacity : Nat) (info : DispatchInfo) :
    Codec × Bytes × DispatchInfo :=
  match attrSetCheck set with
  | .ok =>
    match frameDecode request with
    | .error e => (e, response, info)
    | .ok frame =>
      if flagOctet frame.header.flags flagServerToClient ≠ set.side then (.unsupportedContext, response, info)
      else dispatchFrame set frame request response capacity info
  | e => (e, response, info)

/-! ## The search -/

/-- The attribute with the smallest identifier from `start` on. -/
structure Least (attributes : List Attribute) (start : UInt16) (a : Attribute) : Prop where
  mem : a ∈ attributes
  from_start : start.toNat ≤ a.id.toNat
  least : ∀ b ∈ attributes, start.toNat ≤ b.id.toNat → a.id.toNat ≤ b.id.toNat

/-- What a search over a list finds. -/
def Found (attributes : List Attribute) (start : UInt16) : Option Attribute → Prop
  | none => ∀ b ∈ attributes, b.id.toNat < start.toNat
  | some a => Least attributes start a

theorem Found.choose {attributes : List Attribute} {start : UInt16} {chosen : Option Attribute}
    (h : Found attributes start chosen) (current : Attribute) :
    Found (attributes ++ [current]) start (chooseNext start chosen current) := by
  unfold chooseNext
  split
  next hbetter =>
    have hstart : start.toNat ≤ current.id.toNat := UInt16.le_iff_toNat_le.1 hbetter.1
    refine ⟨by simp, hstart, fun b hb hb' => ?_⟩
    rcases List.mem_append.1 hb with hold | hnew
    · cases chosen with
      | none =>
        have := h b hold
        omega
      | some c =>
        have hlt : current.id.toNat < c.id.toNat := UInt16.lt_iff_toNat_lt.1 (by simpa using hbetter.2)
        have := h.least b hold hb'
        omega
    · simp only [List.mem_singleton] at hnew
      rw [hnew]
  next hworse =>
    cases chosen with
    | none =>
      intro b hb
      rcases List.mem_append.1 hb with hold | hnew
      · exact h b hold
      · simp only [List.mem_singleton] at hnew
        rw [hnew]
        by_contra hge
        exact hworse ⟨UInt16.le_iff_toNat_le.2 (by omega), by simp⟩
    | some c =>
      refine ⟨List.mem_append_left _ h.mem, h.from_start, fun b hb hb' => ?_⟩
      rcases List.mem_append.1 hb with hold | hnew
      · exact h.least b hold hb'
      · simp only [List.mem_singleton] at hnew
        rw [hnew] at hb' ⊢
        by_contra hlt
        have hbelow : current.id < c.id := UInt16.lt_iff_toNat_lt.2 (by omega)
        exact hworse ⟨UInt16.le_iff_toNat_le.2 hb', by simpa using hbelow⟩

theorem nextAttribute_found (set : AttributeSet) (start : UInt16) :
    Found set.attributes start (nextAttribute set start) := by
  have hall : ∀ l : List Attribute, Found l start (l.foldl (chooseNext start) none) := by
    intro l
    induction l using List.reverseRecOn with
    | nil => exact fun b hb => by simp at hb
    | append_singleton l current ih =>
      rw [List.foldl_append]
      exact ih.choose current
  exact hall set.attributes

/-! ## Tables -/

/-- A table that passes its check names every attribute once. -/
theorem attrsCheck_nodup {manufacturerSpecific : UInt8} {prior rest : List Attribute}
    (h : attrsCheck manufacturerSpecific prior rest = .ok) (hprior : (prior.map Attribute.id).Nodup) :
    ((prior ++ rest).map Attribute.id).Nodup := by
  induction rest generalizing prior with
  | nil => simpa using hprior
  | cons a rest ih =>
    simp only [attrsCheck] at h
    split at h
    · cases h
    split at h
    · cases h
    next hfresh =>
      have hnew : a.id ∉ prior.map Attribute.id := by
        intro hmem
        obtain ⟨b, hb, hid⟩ := List.mem_map.1 hmem
        exact hfresh (List.any_eq_true.2 ⟨b, hb, by simpa using hid⟩)
      have hnext : ((prior ++ [a]).map Attribute.id).Nodup := by
        rw [List.map_append, List.nodup_append]
        refine ⟨hprior, by simp, fun x hx y hy hxy => ?_⟩
        simp only [List.map_cons, List.map_nil, List.mem_singleton] at hy
        rw [hxy, hy] at hx
        exact hnew hx
      have := ih h hnext
      simpa using this

theorem attrSetCheck_nodup {set : AttributeSet} (h : attrSetCheck set = .ok) :
    (set.attributes.map Attribute.id).Nodup := by
  unfold attrSetCheck at h
  split at h
  · cases h
  · simpa using attrsCheck_nodup h (by simp)

theorem same_attribute {attributes : List Attribute} (h : (attributes.map Attribute.id).Nodup) {a b : Attribute}
    (ha : a ∈ attributes) (hb : b ∈ attributes) (hid : a.id.toNat = b.id.toNat) : a = b :=
  List.inj_on_of_nodup_map h ha hb (UInt16.toNat_inj.1 hid)

/-! ## One page -/

/-- The identifier behind another one, which only 0xFFFF does not have. -/
theorem next_toNat {id : UInt16} (h : id ≠ 0xffff) : (id + 1).toNat = id.toNat + 1 := by
  have hmax := id.toNat_lt
  have hne : id.toNat ≠ 65535 := fun heq => h (UInt16.toNat_inj.1 heq)
  simp only [UInt16.toNat_add, UInt16.reduceToNat]
  omega

/-- An entry of a discovery page. -/
abbrev Listing := UInt16 × UInt8

def Attribute.listing (a : Attribute) : Listing := (a.id, a.value.type)

def listingOctets (listings : List Listing) : Bytes := listings.flatMap fun l => put16 l.1 ++ [l.2]

/-- What a page from `start` says about a table: ascending identifiers without a gap, and
complete exactly when nothing is left behind them. -/
structure PageOf (attributes : List Attribute) (start : UInt16) (listings : List Listing) (complete : Bool) : Prop where
  ascending : (listings.map fun l => l.1.toNat).Pairwise (· < ·)
  listed : ∀ l ∈ listings, ∃ a ∈ attributes, start.toNat ≤ a.id.toNat ∧ l = a.listing
  gapless : ∀ a ∈ attributes, start.toNat ≤ a.id.toNat →
    a.listing ∈ listings ∨ ∀ l ∈ listings, l.1.toNat < a.id.toNat
  complete_iff : complete = true ↔ ∀ a ∈ attributes, start.toNat ≤ a.id.toNat → a.listing ∈ listings

theorem PageOf.empty {attributes : List Attribute} {start : UInt16} (h : Found attributes start none) :
    PageOf attributes start [] true := by
  refine ⟨by simp, by simp, fun a ha hstart => ?_, by simpa using fun a ha => h a ha⟩
  have := h a ha
  omega

theorem PageOf.cut {attributes : List Attribute} {start : UInt16} {a : Attribute} (h : Least attributes start a) :
    PageOf attributes start [] false := by
  refine ⟨by simp, by simp, by simp, by simpa using ⟨a, h.mem, h.from_start⟩⟩

/-- The last identifier ends the page. -/
theorem PageOf.last {attributes : List Attribute} {start : UInt16} {a : Attribute}
    (hnodup : (attributes.map Attribute.id).Nodup) (h : Least attributes start a) (hlast : a.id = 0xffff) :
    PageOf attributes start [a.listing] true := by
  have honly : ∀ b ∈ attributes, start.toNat ≤ b.id.toNat → b.listing = a.listing := by
    intro b hb hstart
    have hle := h.least b hb hstart
    have hmax := b.id.toNat_lt
    have hid : a.id.toNat = 65535 := by rw [hlast]; rfl
    rw [same_attribute hnodup hb h.mem (by omega)]
  refine ⟨by simp, ?_, fun b hb hstart => .inl (by simp [honly b hb hstart]), ?_⟩
  · intro l hl
    simp only [List.mem_singleton] at hl
    exact ⟨a, h.mem, h.from_start, hl⟩
  · simp only [true_iff]
    intro b hb hstart
    simp [honly b hb hstart]

/-- One listing in front of the page that continues behind it. -/
theorem PageOf.cons {attributes : List Attribute} {start : UInt16} {a : Attribute} {listings : List Listing} {complete : Bool}
    (hnodup : (attributes.map Attribute.id).Nodup) (h : Least attributes start a) (hlast : a.id ≠ 0xffff)
    (hpage : PageOf attributes (a.id + 1) listings complete) :
    PageOf attributes start (a.listing :: listings) complete := by
  have hnext := next_toNat hlast
  have hstart := h.from_start
  -- Every other attribute from `start` on lies behind `a`.
  have hbehind : ∀ b ∈ attributes, start.toNat ≤ b.id.toNat → b = a ∨ (a.id + 1).toNat ≤ b.id.toNat := by
    intro b hb hb'
    have hle := h.least b hb hb'
    by_cases heq : a.id.toNat = b.id.toNat
    · exact .inl (same_attribute hnodup hb h.mem heq.symm)
    · exact .inr (by omega)
  have habove : ∀ l ∈ listings, a.id.toNat < l.1.toNat := by
    intro l hl
    obtain ⟨b, _, hb, rfl⟩ := hpage.listed l hl
    show a.id.toNat < b.id.toNat
    omega
  refine ⟨?_, ?_, ?_, ?_⟩
  · rw [List.map_cons, List.pairwise_cons]
    refine ⟨fun n hn => ?_, hpage.ascending⟩
    obtain ⟨l, hl, rfl⟩ := List.mem_map.1 hn
    exact habove l hl
  · intro l hl
    rcases List.mem_cons.1 hl with rfl | hl
    · exact ⟨a, h.mem, h.from_start, rfl⟩
    · obtain ⟨b, hb, hb', rfl⟩ := hpage.listed l hl
      exact ⟨b, hb, by omega, rfl⟩
  · intro b hb hb'
    rcases hbehind b hb hb' with rfl | hb''
    · exact .inl (by simp)
    · rcases hpage.gapless b hb hb'' with hmem | hall
      · exact .inl (List.mem_cons_of_mem _ hmem)
      · refine .inr fun l hl => ?_
        rcases List.mem_cons.1 hl with rfl | hl
        · show a.id.toNat < b.id.toNat
          omega
        · exact hall l hl
  · rw [hpage.complete_iff]
    constructor
    · intro hall b hb hb'
      rcases hbehind b hb hb' with rfl | hb''
      · simp
      · exact List.mem_cons_of_mem _ (hall b hb hb'')
    · intro hall b hb hb'
      rcases List.mem_cons.1 (hall b hb (by omega)) with heq | hmem
      · have hid : b.id = a.id := congrArg Prod.fst heq
        rw [hid] at hb'
        omega
      · exact hmem

/-- The flag octet of a page. -/
def completeOctet (complete : Bool) : UInt8 := if complete then 1 else 0

@[simp] theorem listingOctets_nil : listingOctets [] = [] := rfl

@[simp] theorem listingOctets_cons (l : Listing) (listings : List Listing) :
    listingOctets (l :: listings) = put16 l.1 ++ [l.2] ++ listingOctets listings := by
  simp [listingOctets]

@[simp] theorem listingOctets_length (listings : List Listing) : (listingOctets listings).length = 3 * listings.length := by
  induction listings with
  | nil => rfl
  | cons l rest ih =>
    simp only [listingOctets_cons, List.length_append, put16_length, List.length_cons, List.length_nil, ih]
    omega

/-- What the loop has written when it ends. -/
def Discovered (set : AttributeSet) (maximum : Nat) (start : UInt16) (budget count : Nat) (payload : Bytes)
    (out : UInt8 × Nat × Bytes) : Prop :=
  ∃ listings complete, PageOf set.attributes start listings complete ∧
    out = (completeOctet complete, count + listings.length, payload ++ listingOctets listings) ∧
    3 * listings.length ≤ budget ∧ (complete = false → count = 0 → maximum ≠ 0 → listings ≠ [])

/-- How many attributes a search from `start` can still find. -/
def ahead (attributes : List Attribute) (start : UInt16) : Nat :=
  (attributes.filter fun a => start.toNat ≤ a.id.toNat).length

theorem ahead_lt {attributes : List Attribute} {start next : UInt16} (hle : start.toNat ≤ next.toNat) {a : Attribute}
    (ha : a ∈ attributes) (hstart : start.toNat ≤ a.id.toNat) (hbelow : a.id.toNat < next.toNat) :
    ahead attributes next < ahead attributes start := by
  have hsub : (attributes.filter fun b => next.toNat ≤ b.id.toNat) =
      (attributes.filter fun b => start.toNat ≤ b.id.toNat).filter fun b => next.toNat ≤ b.id.toNat := by
    rw [List.filter_filter]
    apply List.filter_congr
    intro b _
    by_cases hb : next.toNat ≤ b.id.toNat
    · have hb' : start.toNat ≤ b.id.toNat := by omega
      rw [decide_eq_true hb, decide_eq_true hb', Bool.and_self]
    · rw [decide_eq_false hb, Bool.false_and]
  rw [ahead, ahead, hsub, List.length_filter_lt_length_iff_exists]
  refine ⟨a, List.mem_filter.2 ⟨ha, by simpa using hstart⟩, ?_⟩
  simp only [decide_eq_true_eq]
  omega

theorem ahead_next {attributes : List Attribute} {start : UInt16} {a : Attribute} (h : Least attributes start a)
    (hlast : a.id ≠ 0xffff) : ahead attributes (a.id + 1) < ahead attributes start := by
  have hstart := h.from_start
  have hnext := next_toNat hlast
  exact ahead_lt (by omega) h.mem hstart (by omega)

theorem discoverRecords_page {set : AttributeSet} {maximum : Nat} (hnodup : (set.attributes.map Attribute.id).Nodup)
    (fuel : Nat) (start : UInt16) (budget count : Nat) (payload : Bytes) (out : UInt8 × Nat × Bytes)
    (hfuel : ahead set.attributes start < fuel)
    (h : discoverRecords set maximum fuel start budget count payload = .ok out) :
    Discovered set maximum start budget count payload out := by
  induction fuel generalizing start budget count payload with
  | zero => omega
  | succ fuel ih =>
    have hfound := nextAttribute_found set start
    simp only [discoverRecords] at h
    split at h
    next hnone =>
      cases h
      rw [hnone] at hfound
      exact ⟨[], true, PageOf.empty hfound, by simp [completeOctet], by simp, by simp⟩
    next a hsome =>
      rw [hsome] at hfound
      split at h
      next hstop =>
        split at h
        · cases h
        next hrefuse =>
          cases h
          refine ⟨[], false, PageOf.cut hfound, by simp [completeOctet], by simp, fun _ hzero hmax => ?_⟩
          exact absurd ⟨hzero, hmax⟩ hrefuse
      next hgo =>
        obtain ⟨_, hbudget⟩ := not_or.1 hgo
        split at h
        · cases h
        split at h
        next hlast =>
          cases h
          refine ⟨[a.listing], true, PageOf.last hnodup hfound hlast, ?_, by simp; omega, by simp⟩
          simp [completeOctet, Attribute.listing]
        next hlast =>
          have hless := ahead_next hfound hlast
          obtain ⟨listings, complete, hpage, hout, hroom, _⟩ := ih (a.id + 1) (budget - 3) (count + 1) _ (by omega) h
          refine ⟨a.listing :: listings, complete, hpage.cons hnodup hfound hlast, ?_, ?_, by simp⟩
          · rw [hout, listingOctets_cons]
            simp only [Attribute.listing, List.length_cons, List.append_assoc, Prod.mk.injEq, and_true, true_and]
            omega
          · simp only [List.length_cons]
            omega

/-- Every type the table holds can be shown. -/
def Showable (set : AttributeSet) : Prop := ∀ a ∈ set.attributes, valueTypeSupported a.value.type = true

theorem discoverRecords_total {set : AttributeSet} {maximum : Nat} (hset : Showable set) (fuel : Nat) (start : UInt16)
    (budget count : Nat) (payload : Bytes) (hroom : count ≠ 0 ∨ 3 ≤ budget) :
    ∃ out, discoverRecords set maximum fuel start budget count payload = .ok out := by
  induction fuel generalizing start budget count payload with
  | zero => exact ⟨_, rfl⟩
  | succ fuel ih =>
    have hfound := nextAttribute_found set start
    simp only [discoverRecords]
    split
    · exact ⟨_, rfl⟩
    next a hsome =>
      rw [hsome] at hfound
      split
      next hstop =>
        rw [if_neg (by omega)]
        exact ⟨_, rfl⟩
      next =>
        rw [if_neg (by simp [hset a hfound.mem])]
        split
        · exact ⟨_, rfl⟩
        · exact ih _ _ _ _ (by omega)

theorem discoverRecords_error {set : AttributeSet} {maximum : Nat} (fuel : Nat) (start : UInt16) (budget count : Nat)
    (payload : Bytes) : discoverRecords set maximum fuel start budget count payload ≠ .error .ok := by
  induction fuel generalizing start budget count payload with
  | zero => simp [discoverRecords]
  | succ fuel ih =>
    simp only [discoverRecords]
    split
    · simp
    · split
      · split <;> simp
      · split
        · simp
        · split
          · simp
          · exact ih _ _ _ _

/-- The answer to one request: a page, its octets and what is said about them. -/
structure DiscoverAnswer (set : AttributeSet) (start : UInt16) (maximum : Nat) (reply : Header) (capacity : Nat)
    (listings : List Listing) (complete : Bool) (octets : Bytes) (info : DispatchInfo) : Prop where
  page : PageOf set.attributes start listings complete
  encoded : EncodedFrame { reply with commandId := commandDiscoverResponse }
    (completeOctet complete :: listingOctets listings) capacity octets
  length : info.length = octets.length
  progress : complete = false → maximum ≠ 0 → listings ≠ []

theorem discover_cases {set : AttributeSet} (hnodup : (set.attributes.map Attribute.id).Nodup) (request : Bytes)
    (reply : Header) (response : Bytes) (capacity : Nat) (info : DispatchInfo) :
    (∃ e info', e ≠ .ok ∧ discover set request reply response capacity info = (e, response, info')) ∨
    ∃ listings complete octets info',
      DiscoverAnswer set (u16At request 0) (byteAt request 2).toNat reply capacity listings complete octets info' ∧
      discover set request reply response capacity info = (.ok, overwrite response octets, info') := by
  unfold discover
  simp only
  split
  · exact .inl ⟨_, _, by decide, rfl⟩
  next hroom =>
    split
    next e he => exact .inl ⟨e, _, fun hok => discoverRecords_error _ _ _ _ _ (hok ▸ he), rfl⟩
    next flag count records hrecords =>
      have hfuel : ahead set.attributes (u16At request 0) < set.attributes.length + 1 :=
        Nat.lt_succ_of_le (List.length_filter_le _ _)
      obtain ⟨listings, complete, hpage, hout, _, hprogress⟩ := discoverRecords_page hnodup _ _ _ _ _ _ hfuel hrecords
      simp only [Prod.mk.injEq, List.nil_append] at hout
      obtain ⟨rfl, rfl, rfl⟩ := hout
      rcases frameEncodeInto_cases { reply with commandId := commandDiscoverResponse }
          (completeOctet complete :: listingOctets listings) response capacity 0 with
        ⟨octets, hencoded, heq⟩ | ⟨e, hne, _, heq⟩
      · have hshort : octets.length < 256 := by
          have := hencoded.short
          rw [← hencoded.length] at this
          exact Nat.lt_of_le_of_lt this (by decide)
        simp only [heq]
        exact .inr ⟨listings, complete, octets, _,
          ⟨hpage, hencoded, UInt8.toNat_ofNat_of_lt' hshort, fun hc => hprogress hc rfl⟩, rfl⟩
      · refine .inl ⟨e, { info with requestedCount := (byteAt request 2).toNat }, hne, ?_⟩
        cases e <;> first
          | exact absurd rfl hne
          | simp only [heq]

theorem discover_total {set : AttributeSet} (hnodup : (set.attributes.map Attribute.id).Nodup) (hset : Showable set)
    (request : Bytes) {reply : Header} (response : Bytes) {capacity : Nat} (info : DispatchInfo)
    (htype : ¬ reply.type > frameClusterSpecific) (hflags : reply.flags &&& 0xe3 = 0)
    (hroom : headerSize reply.flags + 4 ≤ budget capacity) :
    (discover set request reply response capacity info).1 = .ok := by
  obtain ⟨out, hrecords⟩ := @discoverRecords_total set (byteAt request 2).toNat hset (set.attributes.length + 1)
    (u16At request 0) (budget capacity - (headerSize reply.flags + 1)) 0 [] (.inr (by omega))
  have hfuel : ahead set.attributes (u16At request 0) < set.attributes.length + 1 :=
    Nat.lt_succ_of_le (List.length_filter_le _ _)
  obtain ⟨listings, complete, _, rfl, hfit, _⟩ := discoverRecords_page hnodup _ _ _ _ _ _ hfuel hrecords
  obtain ⟨hcapacity, hmax⟩ := budget_le capacity
  have hlength : (completeOctet complete :: ([] ++ listingOctets listings)).length = 1 + 3 * listings.length := by
    simp
    omega
  have hencoded : EncodedFrame { reply with commandId := commandDiscoverResponse }
      (completeOctet complete :: ([] ++ listingOctets listings)) capacity _ :=
    ⟨htype, hflags, by simp only [hlength]; omega, by simp only [hlength]; omega, rfl⟩
  unfold discover
  simp only
  rw [if_neg (by omega)]
  simp only [hrecords, frameEncodeInto, frameEncode_ok.2 hencoded]

/-! ## Every command -/

/-- A call fails and writes nothing, or succeeds. -/
def Settled (response : Bytes) (info : DispatchInfo) (out : Codec × Bytes × DispatchInfo) : Prop :=
  (∃ e, e ≠ .ok ∧ out = (e, response, info)) ∨ ∃ response' info', out = (.ok, response', info')

theorem defaultResponse_settled (h : Header) (status : UInt8) (response : Bytes) (capacity : Nat)
    (info candidate : DispatchInfo) :
    Settled response info (defaultResponse h status response capacity info candidate) := by
  unfold defaultResponse
  simp only
  rcases frameEncodeInto_cases { replyHeader h commandDefaultResponse with type := frameGlobal } [h.commandId, status]
      response capacity 0 with ⟨octets, _, heq⟩ | ⟨e, hne, _, heq⟩
  · simp only [heq]
    exact .inr ⟨_, _, rfl⟩
  · refine .inl ⟨e, hne, ?_⟩
    cases e <;> first
      | exact absurd rfl hne
      | simp only [heq]

theorem dispatchFrame_settled {set : AttributeSet} (hnodup : (set.attributes.map Attribute.id).Nodup) (frame : FrameInfo)
    (request response : Bytes) (capacity : Nat) (info : DispatchInfo) :
    Settled response info (dispatchFrame set frame request response capacity info) := by
  unfold dispatchFrame
  simp only
  split
  · split
    · exact .inl ⟨_, by decide, rfl⟩
    split
    · exact .inl ⟨_, by decide, rfl⟩
    split
    · exact .inl ⟨_, by decide, rfl⟩
    · exact .inr ⟨_, _, rfl⟩
  split
  · rcases wrHandle_cases set frame (request.drop frame.payloadOffset) response capacity
        { DispatchInfo.zero with sequence := frame.header.sequence } none with
      ⟨e, info', hne, heq⟩ | ⟨_, _, _, ⟨_, _, heq⟩ | ⟨_, _, _, _, _, _, heq⟩⟩
    · refine .inl ⟨e, hne, ?_⟩
      cases e <;> first
        | exact absurd rfl hne
        | simp only [heq]
    · simp only [heq]
      exact .inr ⟨_, _, rfl⟩
    · simp only [heq]
      exact .inr ⟨_, _, rfl⟩
  split
  · exact .inl ⟨_, by decide, rfl⟩
  split
  · rcases readAttrsUnicast_cases set request response capacity ⟨0, 0, 0, 0⟩ with ⟨e, hne, heq⟩ | ⟨_, _, _, _, _, _, _, heq⟩
    · refine .inl ⟨e, hne, ?_⟩
      cases e <;> first
        | exact absurd rfl hne
        | simp only [heq]
    · simp only [heq]
      exact .inr ⟨_, _, rfl⟩
  split
  · split
    · exact defaultResponse_settled _ _ _ _ _ _
    split
    · exact .inl ⟨_, by decide, rfl⟩
    · rcases discover_cases hnodup (request.drop frame.payloadOffset) (replyHeader frame.header frame.header.commandId)
          response capacity { DispatchInfo.zero with sequence := frame.header.sequence } with
        ⟨e, info', hne, heq⟩ | ⟨_, _, _, _, _, heq⟩
      · refine .inl ⟨e, hne, ?_⟩
        cases e <;> first
          | exact absurd rfl hne
          | simp only [heq]
      · simp only [heq]
        exact .inr ⟨_, _, rfl⟩
  · exact defaultResponse_settled _ _ _ _ _ _

theorem dispatchUnicast_settled (set : AttributeSet) (request response : Bytes) (capacity : Nat) (info : DispatchInfo) :
    Settled response info (dispatchUnicast set request response capacity info) := by
  unfold dispatchUnicast
  split
  next hset =>
    split
    next e he => exact .inl ⟨e, fun hok => frameDecode_error request (hok ▸ he), rfl⟩
    next frame _ =>
      split
      · exact .inl ⟨_, by decide, rfl⟩
      · exact dispatchFrame_settled (attrSetCheck_nodup hset) frame request response capacity info
  next hne => exact .inl ⟨attrSetCheck set, hne, rfl⟩

/-! ## Paging -/

/-- One request of a client: its sequence number, its page size, and the buffer and the
capacity its answer meets. -/
structure PageRequest where
  sequence : UInt8
  maximum : UInt8
  buffer : Bytes
  capacity : Nat

/-- The flags of a request to the side and manufacturer of a table. -/
def requestFlags (manufacturerSpecific side : UInt8) : UInt8 :=
  (if manufacturerSpecific ≠ 0 then flagManufacturerSpecific else 0) ||| if side ≠ 0 then flagServerToClient else 0

def discoverHeader (set : AttributeSet) (sequence : UInt8) : Header where
  type := frameGlobal
  flags := requestFlags set.manufacturerSpecific set.side
  manufacturerCode := if set.manufacturerSpecific ≠ 0 then set.manufacturerCode else 0
  sequence := sequence
  commandId := commandDiscoverAttributes

def discoverRequest (set : AttributeSet) (p : PageRequest) (start : UInt16) : Bytes :=
  (discoverHeader set p.sequence).octets ++ (put16 start ++ [p.maximum])

/-- The listings of a response payload. -/
def readListings : Bytes → List Listing
  | a :: b :: c :: rest => (le16 a b, c) :: readListings rest
  | _ => []

/-- What a client reads from the octets of a response. -/
def readPage (octets : Bytes) : Option (List Listing × Bool) :=
  match frameDecode octets with
  | .error _ => none
  | .ok frame =>
    let payload := octets.drop frame.payloadOffset
    some (readListings payload.tail, byteAt payload 0 = 1)

/-- One request and its answer. -/
def discoverPage (set : AttributeSet) (p : PageRequest) (start : UInt16) : Option (List Listing × Bool) :=
  match dispatchUnicast set (discoverRequest set p start) p.buffer p.capacity .zero with
  | (.ok, response, info) => readPage (response.take info.length)
  | _ => none

/-- The client: it asks on behind the last identifier until a page is complete. -/
def collect (set : AttributeSet) : List PageRequest → (start : UInt16) → List Listing × Bool
  | [], _ => ([], false)
  | p :: pages, start =>
    match discoverPage set p start with
    | none => ([], false)
    | some (listings, complete) =>
      if complete then (listings, true)
      else
        match listings.getLast? with
        | none => ([], false)
        | some last =>
          let rest := collect set pages (last.1 + 1)
          (listings ++ rest.1, rest.2)

@[simp] theorem readListings_octets (listings : List Listing) : readListings (listingOctets listings) = listings := by
  induction listings with
  | nil => rfl
  | cons l rest ih =>
    obtain ⟨id, type⟩ := l
    have hle : le16 (octet id.toNat 0) (octet id.toNat 1) = id := le16_put id
    simp [put16, readListings, hle, ih]

/-- The octets of an answer are read as its page. -/
theorem readPage_answer {set : AttributeSet} {start : UInt16} {maximum : Nat} {reply : Header} {capacity : Nat}
    {listings : List Listing} {complete : Bool} {octets : Bytes} {info : DispatchInfo}
    (h : DiscoverAnswer set start maximum reply capacity listings complete octets info) :
    readPage octets = some (listings, complete) := by
  obtain ⟨hdecode, hpayload⟩ := frame_decode_encode (frameEncode_ok.2 h.encoded)
  have hflag : decide (completeOctet complete = 1) = complete := by cases complete <;> rfl
  simp only [readPage, hdecode, hpayload, byteAt_here, List.tail_cons, readListings_octets, hflag]

/-- The flags of a discovery request are those its table asks for. -/
theorem discoverHeader_flags {set : AttributeSet} (hset : attrSetCheck set = .ok) (sequence : UInt8) :
    (discoverHeader set sequence).flags &&& 0xe3 = 0 ∧
      flagOctet (discoverHeader set sequence).flags flagServerToClient = set.side ∧
      contextMatches set (discoverHeader set sequence) = true ∧
      (discoverHeader set sequence).canonical = discoverHeader set sequence := by
  have hbits : ∀ n : UInt8, ¬ n > 1 → n ∈ [(0 : UInt8), 1] := by decide +kernel
  have hall : ∀ m ∈ [(0 : UInt8), 1], ∀ n ∈ [(0 : UInt8), 1], requestFlags m n &&& 0xe3 = 0 ∧
      flagOctet (requestFlags m n) flagServerToClient = n ∧ flagOctet (requestFlags m n) flagManufacturerSpecific = m ∧
      has (requestFlags m n) flagManufacturerSpecific = decide (m ≠ 0) := by decide +kernel
  unfold attrSetCheck at hset
  split at hset
  · cases hset
  next hshape =>
    obtain ⟨_, hrest⟩ := not_or.1 hshape
    obtain ⟨hside, hms⟩ := not_or.1 hrest
    obtain ⟨hflags, hs2c, hmfr, hhas⟩ := hall _ (hbits _ hms) _ (hbits _ hside)
    refine ⟨hflags, hs2c, ?_, ?_⟩
    · rw [contextMatches, decide_eq_true_iff]
      refine ⟨hmfr, ?_⟩
      by_cases hzero : set.manufacturerSpecific = 0
      · exact .inl hzero
      · exact .inr (if_pos hzero)
    · by_cases hzero : set.manufacturerSpecific = 0
      · simp [Header.canonical, discoverHeader, hhas, hzero]
      · simp [Header.canonical, discoverHeader, hhas, hzero]

/-- A discovery request reaches the search. -/
theorem dispatch_discover {set : AttributeSet} (hset : attrSetCheck set = .ok) (p : PageRequest) (start : UInt16) :
    dispatchUnicast set (discoverRequest set p start) p.buffer p.capacity .zero =
      match discover set (put16 start ++ [p.maximum])
          (replyHeader (discoverHeader set p.sequence) commandDiscoverAttributes) p.buffer p.capacity
          { DispatchInfo.zero with sequence := p.sequence } with
      | (.ok, response, candidate) => (.ok, response, candidate)
      | (e, response, _) => (e, response, .zero) := by
  obtain ⟨hflags, hside, hcontext, hcanonical⟩ := discoverHeader_flags hset p.sequence
  have hlength : (put16 start ++ [p.maximum]).length = 3 := by simp
  have hsize := headerSize_cases (discoverHeader set p.sequence).flags
  have hencoded : frameEncode (discoverHeader set p.sequence) (put16 start ++ [p.maximum]) 100 =
      .ok (discoverRequest set p start) := by
    refine frameEncode_ok.2 ⟨by simp [discoverHeader, frameGlobal, frameClusterSpecific], hflags, ?_, ?_, rfl⟩ <;>
      rw [hlength] <;> rcases hsize with ⟨_, hs⟩ | ⟨_, hs⟩ <;> rw [hs] <;> decide
  obtain ⟨hdecode, hpayload⟩ := frame_decode_encode hencoded
  rw [hcanonical, hlength] at hdecode
  unfold dispatchUnicast
  simp only [hset, hdecode]
  rw [if_neg (not_not.2 hside)]
  unfold dispatchFrame
  simp only [hpayload]
  rw [if_neg (by simp [discoverHeader, commandDiscoverAttributes, commandDefaultResponse]),
    if_neg (by simp [discoverHeader, writeCommand, commandDiscoverAttributes, commandWriteAttributes,
      commandWriteUndivided, commandWriteNoResponse]),
    if_neg (by simp [discoverHeader, commandDiscoverAttributes, commandWriteNoResponse]),
    if_neg (by simp [discoverHeader, commandDiscoverAttributes, commandReadAttributes]),
    if_pos ⟨hcontext, rfl, rfl⟩, if_neg (by omega), if_neg (by simp)]
  rfl

theorem take_overwrite (buffer octets : Bytes) : (overwrite buffer octets).take octets.length = octets := by
  rw [overwrite, List.take_left]

/-- A page that was answered is a page of the table. -/
theorem discoverPage_page {set : AttributeSet} (hset : attrSetCheck set = .ok) {p : PageRequest} {start : UInt16}
    {listings : List Listing} {complete : Bool} (h : discoverPage set p start = some (listings, complete)) :
    PageOf set.attributes start listings complete ∧ (complete = false → p.maximum ≠ 0 → listings ≠ []) := by
  unfold discoverPage at h
  rw [dispatch_discover hset] at h
  rcases discover_cases (attrSetCheck_nodup hset) (put16 start ++ [p.maximum])
      (replyHeader (discoverHeader set p.sequence) commandDiscoverAttributes) p.buffer p.capacity
      { DispatchInfo.zero with sequence := p.sequence } with
    ⟨e, info', hne, heq⟩ | ⟨listings', complete', octets, info', hanswer, heq⟩
  · rw [heq] at h
    cases e <;> first
      | exact absurd rfl hne
      | simp at h
  · simp only [heq, hanswer.length, take_overwrite, readPage_answer hanswer, Option.some.injEq, Prod.mk.injEq] at h
    obtain ⟨rfl, rfl⟩ := h
    have hstart : u16At (put16 start ++ [p.maximum]) 0 = start := u16At_here start _
    have hmaximum : byteAt (put16 start ++ [p.maximum]) 2 = p.maximum := by simp [put16, byteAt]
    have hpage := hanswer.page
    have hprogress := hanswer.progress
    rw [hstart] at hpage
    rw [hmaximum] at hprogress
    exact ⟨hpage, fun hc hmax => hprogress hc fun hzero => hmax (UInt8.toNat_inj.1 hzero)⟩

/-- The octets a page with one listing needs. -/
def PageRequest.Holds (set : AttributeSet) (p : PageRequest) : Prop :=
  headerSize (requestFlags set.manufacturerSpecific set.side) + 4 ≤ p.capacity

theorem discoverPage_total {set : AttributeSet} (hset : attrSetCheck set = .ok) (hshow : Showable set) {p : PageRequest}
    (hp : p.Holds set) (start : UInt16) : ∃ listings complete, discoverPage set p start = some (listings, complete) := by
  obtain ⟨hflags, _, _, _⟩ := discoverHeader_flags hset p.sequence
  obtain ⟨hreply, hsize⟩ := replyFlags_fields hflags
  have hroom : headerSize (replyHeader (discoverHeader set p.sequence) commandDiscoverAttributes).flags + 4 ≤
      budget p.capacity := by
    show headerSize (replyFlags (discoverHeader set p.sequence).flags) + 4 ≤ budget p.capacity
    rw [hsize, budget_eq]
    refine le_min hp ?_
    rcases headerSize_cases (discoverHeader set p.sequence).flags with ⟨_, hs⟩ | ⟨_, hs⟩ <;> rw [hs] <;> decide
  have hok := discover_total (attrSetCheck_nodup hset) hshow (put16 start ++ [p.maximum]) p.buffer
    { DispatchInfo.zero with sequence := p.sequence }
    (show ¬ frameGlobal > frameClusterSpecific by decide) hreply hroom
  unfold discoverPage
  rw [dispatch_discover hset]
  rcases discover_cases (attrSetCheck_nodup hset) (put16 start ++ [p.maximum])
      (replyHeader (discoverHeader set p.sequence) commandDiscoverAttributes) p.buffer p.capacity
      { DispatchInfo.zero with sequence := p.sequence } with
    ⟨e, info', hne, heq⟩ | ⟨listings, complete, octets, info', hanswer, heq⟩
  · rw [heq] at hok
    exact absurd hok hne
  · refine ⟨listings, complete, ?_⟩
    simp only [heq, hanswer.length, take_overwrite, readPage_answer hanswer]

/-- The last listing of a page is its largest, and a page that is not complete leaves
an attribute behind it. -/
theorem PageOf.beyond {attributes : List Attribute} {start : UInt16} {listings : List Listing} {last : Listing}
    (h : PageOf attributes start listings false) (hlast : listings.getLast? = some last) :
    (∀ l ∈ listings, l.1.toNat ≤ last.1.toNat) ∧ (last.1 + 1).toNat = last.1.toNat + 1 ∧
      ∃ a ∈ attributes, (last.1 + 1).toNat ≤ a.id.toNat := by
  obtain ⟨front, rfl⟩ := List.getLast?_eq_some_iff.1 hlast
  have hle : ∀ l ∈ front ++ [last], l.1.toNat ≤ last.1.toNat := by
    intro l hl
    have hasc := h.ascending
    rw [List.map_append, List.pairwise_append] at hasc
    rcases List.mem_append.1 hl with hfront | hend
    · exact Nat.le_of_lt (hasc.2.2 _ (List.mem_map_of_mem hfront) _ (by simp))
    · simp only [List.mem_singleton] at hend
      rw [hend]
  have hleft : ∃ a ∈ attributes, start.toNat ≤ a.id.toNat ∧ a.listing ∉ front ++ [last] := by
    have hnot := mt h.complete_iff.2 (by simp)
    push_neg at hnot
    exact hnot
  obtain ⟨a, ha, hstart, hmissing⟩ := hleft
  have hbelow : last.1.toNat < a.id.toNat := by
    rcases h.gapless a ha hstart with hmem | hall
    · exact absurd hmem hmissing
    · exact hall last (by simp)
  have hmax := a.id.toNat_lt
  have hnext : (last.1 + 1).toNat = last.1.toNat + 1 := by
    simp only [UInt16.toNat_add, UInt16.reduceToNat]
    omega
  exact ⟨hle, hnext, a, ha, by omega⟩

/-- Two pages one behind the other. -/
theorem PageOf.append {attributes : List Attribute} {start : UInt16} {listings rest : List Listing} {last : Listing}
    {complete : Bool} (h : PageOf attributes start listings false) (hlast : listings.getLast? = some last)
    (hrest : PageOf attributes (last.1 + 1) rest complete) : PageOf attributes start (listings ++ rest) complete := by
  obtain ⟨hle, hnext, _⟩ := h.beyond hlast
  have hmem : last ∈ listings := List.mem_of_getLast? hlast
  obtain ⟨b, _, hb, hlisting⟩ := h.listed last hmem
  have hstart : start.toNat ≤ last.1.toNat := by
    rw [hlisting]
    exact hb
  have habove : ∀ l ∈ rest, last.1.toNat < l.1.toNat := by
    intro l hl
    obtain ⟨a, _, ha, rfl⟩ := hrest.listed l hl
    show last.1.toNat < a.id.toNat
    omega
  -- An attribute from `start` on is on the first page or behind it.
  have hsplit : ∀ a ∈ attributes, start.toNat ≤ a.id.toNat →
      a.listing ∈ listings ∨ (last.1 + 1).toNat ≤ a.id.toNat := by
    intro a ha ha'
    rcases h.gapless a ha ha' with hin | hall
    · exact .inl hin
    · have := hall last hmem
      exact .inr (by omega)
  refine ⟨?_, ?_, ?_, ?_⟩
  · rw [List.map_append, List.pairwise_append]
    refine ⟨h.ascending, hrest.ascending, fun x hx y hy => ?_⟩
    obtain ⟨l, hl, rfl⟩ := List.mem_map.1 hx
    obtain ⟨m, hm, rfl⟩ := List.mem_map.1 hy
    exact Nat.lt_of_le_of_lt (hle l hl) (habove m hm)
  · intro l hl
    rcases List.mem_append.1 hl with hl | hl
    · exact h.listed l hl
    · obtain ⟨a, ha, ha', rfl⟩ := hrest.listed l hl
      exact ⟨a, ha, by omega, rfl⟩
  · intro a ha ha'
    rcases hsplit a ha ha' with hin | hbehind
    · exact .inl (List.mem_append_left _ hin)
    · rcases hrest.gapless a ha hbehind with hin | hall
      · exact .inl (List.mem_append_right _ hin)
      · refine .inr fun l hl => ?_
        rcases List.mem_append.1 hl with hl | hl
        · have := hle l hl
          omega
        · exact hall l hl
  · rw [hrest.complete_iff]
    constructor
    · intro hall a ha ha'
      rcases hsplit a ha ha' with hin | hbehind
      · exact List.mem_append_left _ hin
      · exact List.mem_append_right _ (hall a ha hbehind)
    · intro hall a ha ha'
      rcases List.mem_append.1 (hall a ha (by omega)) with hin | hin
      · have := hle a.listing hin
        have hid : a.listing.1 = a.id := rfl
        rw [hid] at this
        omega
      · exact hin

/-- With a page for each attribute still ahead, the client ends with a complete list. -/
theorem collect_page {set : AttributeSet} (hset : attrSetCheck set = .ok) (hshow : Showable set)
    (pages : List PageRequest) (hpages : ∀ p ∈ pages, p.maximum ≠ 0 ∧ p.Holds set) (start : UInt16)
    (hmany : max 1 (ahead set.attributes start) ≤ pages.length) :
    (collect set pages start).2 = true ∧ PageOf set.attributes start (collect set pages start).1 true := by
  induction pages generalizing start with
  | nil =>
    simp only [List.length_nil] at hmany
    omega
  | cons p pages ih =>
    obtain ⟨hmaximum, hholds⟩ := hpages p (by simp)
    obtain ⟨listings, complete, hpage⟩ := discoverPage_total hset hshow hholds start
    obtain ⟨hof, hprogress⟩ := discoverPage_page hset hpage
    simp only [collect, hpage]
    cases complete with
    | true => exact ⟨rfl, hof⟩
    | false =>
      obtain ⟨last, hlast⟩ : ∃ last, listings.getLast? = some last :=
        ⟨_, List.getLast?_eq_some_getLast (hprogress rfl hmaximum)⟩
      obtain ⟨_, hnext, beyond, hbeyond, hbeyond'⟩ := hof.beyond hlast
      obtain ⟨a, ha, ha', hlisting⟩ := hof.listed last (List.mem_of_getLast? hlast)
      have hid : last.1.toNat = a.id.toNat := by rw [hlisting]; rfl
      have hless : ahead set.attributes (last.1 + 1) < ahead set.attributes start :=
        ahead_lt (by omega) ha ha' (by omega)
      have hsome : 0 < ahead set.attributes (last.1 + 1) :=
        List.length_pos_of_mem (List.mem_filter.2 ⟨hbeyond, by simpa using hbeyond'⟩)
      simp only [List.length_cons] at hmany
      obtain ⟨hdone, hrest⟩ := ih (fun q hq => hpages q (List.mem_cons_of_mem _ hq)) (last.1 + 1) (by omega)
      simp only [hlast, Bool.false_eq_true, if_false]
      exact ⟨hdone, hof.append hlast hrest⟩

/-- Discover Attributes, for every table whose types can be shown: whatever the page sizes
and capacities, asking on behind the last identifier lists every attribute exactly once in
ascending order and ends with a complete page; and a page, of whatever size, is marked
complete exactly when no attribute lies behind it. -/
theorem discovery_complete (set : AttributeSet) (hset : attrSetCheck set = .ok) (hshow : Showable set) :
    (∀ pages : List PageRequest, (∀ p ∈ pages, p.maximum ≠ 0 ∧ p.Holds set) →
      max 1 set.attributes.length ≤ pages.length →
      (collect set pages 0).2 = true ∧
      ((collect set pages 0).1.map fun l => l.1.toNat).Pairwise (· < ·) ∧
      ∀ l, l ∈ (collect set pages 0).1 ↔ ∃ a ∈ set.attributes, l = a.listing) ∧
    (∀ p start, p.Holds set → ∃ listings complete, discoverPage set p start = some (listings, complete)) ∧
    ∀ p start listings complete, discoverPage set p start = some (listings, complete) →
      (complete = true ↔
        ¬ ∃ a ∈ set.attributes, start.toNat ≤ a.id.toNat ∧ ∀ l ∈ listings, l.1.toNat < a.id.toNat) := by
  refine ⟨fun pages hpages hmany => ?_, fun p start hp => discoverPage_total hset hshow hp start,
    fun p start listings complete h => ?_⟩
  · have hahead : ahead set.attributes 0 ≤ set.attributes.length := List.length_filter_le _ _
    obtain ⟨hdone, hpage⟩ := collect_page hset hshow pages hpages 0 (by omega)
    refine ⟨hdone, hpage.ascending, fun l => ⟨fun hl => ?_, ?_⟩⟩
    · obtain ⟨a, ha, _, heq⟩ := hpage.listed l hl
      exact ⟨a, ha, heq⟩
    · rintro ⟨a, ha, rfl⟩
      exact hpage.complete_iff.1 rfl a ha (Nat.zero_le _)
  · have hpage := (discoverPage_page hset h).1
    rw [hpage.complete_iff]
    constructor
    · rintro hall ⟨a, ha, ha', hbelow⟩
      exact Nat.lt_irrefl _ (hbelow a.listing (hall a ha ha'))
    · intro hnone a ha ha'
      rcases hpage.gapless a ha ha' with hin | hbelow
      · exact hin
      · exact absurd ⟨a, ha, ha', hbelow⟩ hnone

/-- A table with the largest identifier, out of order, asked for one attribute at a time. -/
def manufacturerTable : AttributeSet :=
  ⟨[⟨0xffff, 1, ⟨typeUint8, 0, [1]⟩⟩, ⟨2, 0, ⟨typeBoolean, 0, [1]⟩⟩], 0, 1, 0x1234⟩

theorem discovery_complete_last_identifier :
    attrSetCheck manufacturerTable = .ok ∧ Showable manufacturerTable ∧
      (collect manufacturerTable [⟨1, 1, [], 100⟩, ⟨2, 1, [], 100⟩] 0).2 = true := by
  have hset : attrSetCheck manufacturerTable = .ok := by decide
  have hshow : Showable manufacturerTable := by unfold Showable; decide
  refine ⟨hset, hshow, ?_⟩
  have hpages : ∀ p ∈ [(⟨1, 1, [], 100⟩ : PageRequest), ⟨2, 1, [], 100⟩], p.maximum ≠ 0 ∧ p.Holds manufacturerTable := by
    intro p hp
    rcases List.mem_cons.1 hp with rfl | hp
    · exact ⟨by decide, by unfold PageRequest.Holds; decide⟩
    · simp only [List.mem_singleton] at hp
      subst hp
      exact ⟨by decide, by unfold PageRequest.Holds; decide⟩
  exact ((discovery_complete manufacturerTable hset hshow).1 _ hpages (by decide)).1

/-- A table may hold a type that cannot be shown, and is then not listed. -/
theorem discovery_stops_at_unsupported_type :
    attrSetCheck ⟨[⟨0, 1, ⟨0xff, 0, []⟩⟩], 0, 0, 0⟩ = .ok ∧
      collect ⟨[⟨0, 1, ⟨0xff, 0, []⟩⟩], 0, 0, 0⟩ [⟨1, 1, [], 100⟩, ⟨2, 1, [], 100⟩] 0 = ([], false) ∧
      (dispatchUnicast ⟨[⟨0, 1, ⟨0xff, 0, []⟩⟩], 0, 0, 0⟩ [0, 1, 0x0c, 0, 0, 1] [] 100 .zero).1 = .unsupportedDataType := by
  decide

end Zcl
