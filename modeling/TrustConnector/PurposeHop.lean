/-
**The purpose, from one connector to the other.**

The client connector writes the purpose of a request into a header, and the server connector reads it
back.  A header can hold more than can be read as text: bytes outside ASCII are sent, and are then no
text for the server.  A purpose that a caller gave has been read once already; one from the
configuration has not.

Main definitions:

* `Delivered` — a header arrives as it was sent, up to surrounding white space.

Main results:

* `singleDataPurpose_of_delivered` — the server reads back a purpose exactly if it is text;
* `purpose_survives_hop_iff` — **for which configurations the purpose survives the hop**.
-/

import TrustConnector.Proxy

set_option relaxedAutoImplicit false
set_option autoImplicit false

namespace TrustConnector

open Text Fallible Http

/-! ### White space around a header value -/

/-- The white space that may surround a header value on the wire. -/
def isOptionalSpace (b : UInt8) : Bool := b = 0x20 || b = 0x09

theorem isVisibleByte_of_isOptionalSpace {b : UInt8} (h : isOptionalSpace b = true) :
    isVisibleByte b = true := by
  simp only [isOptionalSpace, Bool.or_eq_true, decide_eq_true_eq] at h
  rcases h with rfl | rfl <;> decide

theorem isWhitespace_of_isOptionalSpace {b : UInt8} (h : isOptionalSpace b = true) :
    isWhitespace (Char.ofUInt8 b) = true := by
  simp only [isOptionalSpace, Bool.or_eq_true, decide_eq_true_eq] at h
  rcases h with rfl | rfl <;> decide

theorem toNat_lt_of_isVisibleByte {b : UInt8} (h : isVisibleByte b = true) : b.toNat < 0x80 := by
  simp only [isVisibleByte, Bool.or_eq_true, Bool.and_eq_true, decide_eq_true_eq] at h
  rcases h with ⟨-, hlt⟩ | rfl
  · have := UInt8.lt_iff_toNat_lt.1 hlt
    simp only [UInt8.reduceToNat] at this
    omega
  · decide

/-- White space around a value does not change whether it is text. -/
theorem all_isVisibleByte_trimBy (value : Str) :
    (trimBy isOptionalSpace value).all isVisibleByte = value.all isVisibleByte := by
  obtain ⟨l, r, hvalue, hl, hr⟩ := exists_padding isOptionalSpace value
  have hpadding : ∀ s : Str, (∀ b ∈ s, isOptionalSpace b = true) → s.all isVisibleByte = true :=
    fun s hs => List.all_eq_true.2 fun b hb => isVisibleByte_of_isOptionalSpace (hs b hb)
  conv_rhs => rw [hvalue]
  rw [List.all_append, List.all_append, hpadding l hl, hpadding r hr, Bool.true_and, Bool.and_true]

/-- White space around a value that is text does not change what it is when it is trimmed. -/
theorem trim_trimBy {value : Str} (h : value.all isVisibleByte = true) :
    trim (trimBy isOptionalSpace value) = trim value := by
  have hascii : ∀ b ∈ value, b.toNat < 0x80 :=
    fun b hb => toNat_lt_of_isVisibleByte (List.all_eq_true.1 h b hb)
  rw [trim_ascii hascii, trim_ascii fun b hb => hascii b (trimBy_subset _ _ hb)]
  exact trimBy_trimBy_of_imp (fun b => isWhitespace_of_isOptionalSpace) value

/-! ### The hop -/

/-- The purposes arrive as they were sent, up to surrounding white space. -/
def Delivered (sent received : HeaderMap) : Prop :=
  List.Forall₂ (fun value value' => trimBy isOptionalSpace value = trimBy isOptionalSpace value')
    (sent.getAll dataPurpose) (received.getAll dataPurpose)

/-- The purpose of a request with one value. -/
theorem singleDataPurpose_of_getAll {headers : HeaderMap} {value purpose : Str}
    (h : headers.getAll dataPurpose = [value]) :
    singleDataPurpose headers = .ok (some purpose) ↔
      value.all isVisibleByte = true ∧ isBlank value = false ∧ trim value = purpose := by
  have hread : (toStr value).isSome = value.all isVisibleByte := by
    rw [toStr]
    cases value.all isVisibleByte <;> rfl
  rw [singleDataPurpose_eq_some, readablePurposes, h, List.filter_cons, List.filter_nil, hread]
  cases value.all isVisibleByte with
  | false => simp
  | true => cases isBlank value <;> simp

/-- **The server reads back a purpose exactly if it is text.** -/
theorem singleDataPurpose_of_delivered {sent received : HeaderMap} {value : Str}
    (hsent : sent.getAll dataPurpose = [value]) (hblank : isBlank value = false)
    (hdelivered : Delivered sent received) :
    singleDataPurpose received = .ok (some (trim value)) ↔ value.all isVisibleByte = true := by
  rw [Delivered, hsent] at hdelivered
  obtain ⟨value', rest, hsame, hrest, hreceived⟩ := List.forall₂_cons_left_iff.1 hdelivered
  obtain rfl := List.forall₂_nil_left_iff.1 hrest
  have htext : value'.all isVisibleByte = value.all isVisibleByte := by
    rw [← all_isVisibleByte_trimBy value', ← hsame, all_isVisibleByte_trimBy]
  rw [singleDataPurpose_of_getAll hreceived, htext]
  constructor
  · exact fun h => h.1
  · intro h
    have htrim : trim value' = trim value := by
      rw [← trim_trimBy (htext.trans h), ← hsame, trim_trimBy h]
    refine ⟨h, ?_, htrim⟩
    rw [isBlank, htrim]
    exact hblank

/-- A purpose that a client gives is the first value of the header, and text. -/
theorem providedPurpose_eq_some {headers : HeaderMap} {value : Str}
    (h : providedPurpose headers = some value) :
    headers.get dataPurpose = some value ∧ value.all isVisibleByte = true ∧
      isBlank value = false := by
  simp only [providedPurpose, Option.filter_eq_some_iff, Option.bind_eq_some_iff,
    Bool.not_eq_true'] at h
  obtain ⟨⟨sent, hsent, htext⟩, hblank⟩ := h
  rw [toStr] at htext
  split_ifs at htext with hall
  obtain rfl := Option.some.inj htext
  exact ⟨hsent, hall, hblank⟩

/-- On a route that requires a purpose the client connector settles one that is not blank.  It comes
from the configuration, or from a header that was read as text. -/
theorem resolveClientPurpose_required {config : ConnectorConfig} {m : RouteMatch}
    {headers : HeaderMap} {purpose : Option Str} (hrequired : m.route.requirePurpose = true)
    (h : resolveClientPurpose config m headers = .ok purpose) :
    ∃ value, purpose = some value ∧ isBlank value = false ∧
      (m.route.purposeSource = some .staticRouteDefault ∧
          config.defaults.dataPurpose = some value ∨
        m.route.purposeSource = some .clientProvided ∧ headers.get dataPurpose = some value ∧
          value.all isVisibleByte = true) := by
  rw [resolveClientPurpose, if_pos hrequired] at h
  cases hsource : m.route.purposeSource with
  | none => simp [hsource] at h
  | some source =>
      simp only [hsource, Option.getD_some] at h
      cases source with
      | staticRouteDefault =>
          simp only [okOr_eq_ok, Option.map_eq_some_iff, Option.filter_eq_some_iff,
            Bool.not_eq_true'] at h
          obtain ⟨value, ⟨hdefault, hblank⟩, rfl⟩ := h
          exact ⟨value, rfl, hblank, Or.inl ⟨rfl, hdefault⟩⟩
      | clientProvided =>
          simp only [okOr_eq_ok, Option.map_eq_some_iff] at h
          obtain ⟨value, hprovided, rfl⟩ := h
          obtain ⟨hsent, htext, hblank⟩ := providedPurpose_eq_some hprovided
          exact ⟨value, rfl, hblank, Or.inr ⟨rfl, hsent, htext⟩⟩
      | deniedMissing => cases h

section

variable {N : Platform} {config : ConnectorConfig} {request : Request} {path : Str}
  {query : Option Str} {requestId : Str} {call : UpstreamRequest} {m : RouteMatch} {value : Str}

/-- The purpose that the client connector settles is the one that it sends. -/
theorem getAll_dataPurpose_of_handleClient
    (hroute : findClientRoute config.routes request.method path = .ok m)
    (hpurpose : resolveClientPurpose config m request.headers = .ok (some value))
    (hcall : (handleClient N config request path query requestId).call = some call) :
    (outbound call).headers.getAll dataPurpose = [value] := by
  obtain ⟨m', purpose, -, hroute', hpurpose', -, -, -, -, hheaders⟩ :=
    clientRequest_eq_ok (clientRequest_of_call hcall)
  obtain rfl : m = m' := Except.ok.inj (hroute.symm.trans hroute')
  obtain rfl : some value = purpose := Except.ok.inj (hpurpose.symm.trans hpurpose')
  rw [getAll_outbound, hheaders, clientValues_dataPurpose]
  rfl

/-- **For which configurations the purpose survives the hop.**  On a route that requires a purpose,
the server connector reads back the purpose that the client connector settled and sent, unless the
route takes it from the configuration and it is not text there. -/
theorem purpose_survives_hop_iff
    (hroute : findClientRoute config.routes request.method path = .ok m)
    (hrequired : m.route.requirePurpose = true)
    (hpurpose : resolveClientPurpose config m request.headers = .ok (some value))
    (hcall : (handleClient N config request path query requestId).call = some call)
    {received : HeaderMap} (hdelivered : Delivered (outbound call).headers received) :
    singleDataPurpose received = .ok (some (trim value)) ↔
      (m.route.purposeSource = some .staticRouteDefault →
        ∀ purpose ∈ config.defaults.dataPurpose, purpose.all isVisibleByte = true) := by
  have hsent := getAll_dataPurpose_of_handleClient hroute hpurpose hcall
  obtain ⟨value', hvalue, hblank, hsource⟩ := resolveClientPurpose_required hrequired hpurpose
  obtain rfl := Option.some.inj hvalue
  rw [singleDataPurpose_of_delivered hsent hblank hdelivered]
  rcases hsource with ⟨hstatic, hdefault⟩ | ⟨hprovided, -, htext⟩
  · rw [hstatic, hdefault]
    simp
  · rw [hprovided]
    simp [htext]

end

section

open Sample

/-- A configuration whose only route takes its purpose from the configuration. -/
def Sample.defaultPurpose (purpose : Str) : ConnectorConfig :=
  { bothModes (str "/v1") with
    defaults := { dataPurpose := some purpose }
    routes := [{ route (str "/v1") with
      requirePurpose := true, purposeSource := some .staticRouteDefault }] }

theorem delivered_refl (headers : HeaderMap) : Delivered headers headers :=
  List.forall₂_same.2 fun _ _ => rfl

/-- A purpose with white space around it survives the hop. -/
theorem purpose_survives_hop_care :
    ∃ call, (handleClient platform (defaultPurpose (str " care")) clientOfAlpha (str "/v1/items")
        none (str "id")).call = some call ∧
      singleDataPurpose (outbound call).headers = .ok (some (str "care")) := by
  have hforwarded : (handleClient platform (defaultPurpose (str " care")) clientOfAlpha
      (str "/v1/items") none (str "id")).call.isSome = true := by decide +kernel
  obtain ⟨call, hcall⟩ := Option.isSome_iff_exists.1 hforwarded
  have hroute : findClientRoute (defaultPurpose (str " care")).routes clientOfAlpha.method
      (str "/v1/items") =
        .ok ⟨{ route (str "/v1") with
          requirePurpose := true
          purposeSource := some .staticRouteDefault }, str "/v1/items"⟩ := rfl
  have htrim : trim (str " care") = str "care" := by decide +kernel
  refine ⟨call, hcall, htrim ▸ (purpose_survives_hop_iff hroute rfl rfl hcall
    (delivered_refl _)).2 fun _ => ?_⟩
  rintro purpose ⟨⟩
  decide +kernel

/-- **A purpose from the configuration may not survive the hop.**  The configuration is accepted, and
the client connector sends the purpose; but it is not ASCII, so for the server connector there is
none. -/
theorem purpose_lost_on_hop :
    validateConfig uriPki host (defaultPurpose (str "fürsorge")) .client true = .ok () ∧
      ((handleClient platform (defaultPurpose (str "fürsorge")) clientOfAlpha (str "/v1/items") none
          (str "id")).call.map fun call => ((outbound call).headers.getAll dataPurpose,
            singleDataPurpose (outbound call).headers)) =
        some ([str "fürsorge"], .ok none) := by
  exact ⟨rfl, rfl⟩

end

end TrustConnector
