import OpaqueTokens.Proofs.Claims.Derivation
import OpaqueTokens.Proofs.Claims.Rereading

/-!
# What can be read back

Claims are written however deep their attributes are nested, but the reader follows lists and
objects to a limit only. Claims that were built, with integers for the numbers of their attributes,
come back as they were up to the limit, and are no document to the reader beyond it. Claims that can
be read back lead to claims that can be read back: what is derived has the same attributes, or none.
-/

namespace OpaqueTokens

open Time (Instant Span)

namespace Wire

/-- Attributes that are nested too deep are not read back. -/
theorem rereadBag?_of_lt {bag : Bag} (h : attributeDepth < bag.toJson.depth) :
    rereadBag? bag = none := by
  by_cases hempty : bag.isEmpty
  · have hbag : bag = .empty := Bag.ext (List.isEmpty_iff.mp hempty)
    subst hbag
    exact absurd h (by decide)
  · rw [rereadBag?, if_neg hempty, bag?, Json.toJson?_toNode_of_lt bag.toJson h]

/-- Only shallow attributes are read back. -/
theorem shallow_of_rereadDelivery? {delivery read : Delivery}
    (h : rereadDelivery? delivery = some read) : delivery.Shallow := by
  have hshallow {bag bag' : Bag} (hbag : rereadBag? bag = some bag') :
      bag.toJson.depth ≤ attributeDepth := by
    refine Nat.not_lt.mp fun hdeep => ?_
    rw [rereadBag?_of_lt hdeep] at hbag
    cases hbag
  obtain ⟨general, hgeneral, h⟩ := Option.bind_eq_some_iff.mp h
  obtain ⟨idToken, hidToken, h⟩ := Option.bind_eq_some_iff.mp h
  obtain ⟨userinfo, huserinfo, -⟩ := Option.bind_eq_some_iff.mp h
  exact ⟨hshallow hgeneral, hshallow hidToken, hshallow huserinfo⟩

/-- What a slot holds, if anything, is nested no deeper than the reader follows. -/
def ShallowSlot (slot : Option Json) : Prop :=
  ∀ value, slot = some value → value.depth ≤ attributeDepth

theorem shallowSlot_none : ShallowSlot none := nofun

theorem shallowSlot_some {value : Json} (h : value.depth ≤ attributeDepth) :
    ShallowSlot (some value) := by
  intro other hother
  exact Option.some.inj hother ▸ h

theorem shallowSlot_text (text : Option String) : ShallowSlot (text.map .string) := by
  cases text with
  | none => exact shallowSlot_none
  | some text => exact shallowSlot_some (Nat.zero_le _)

theorem shallowSlot_texts (texts : List String) : ShallowSlot (textsSlot texts) := by
  have hitems : Json.itemsDepth (texts.map .string) = 0 := by
    induction texts with
    | nil => rfl
    | cons text rest ih => simp [Json.itemsDepth, Json.depth, ih]
  unfold textsSlot
  split
  · exact shallowSlot_none
  · refine shallowSlot_some ?_
    rw [Json.depth, hitems]
    decide

theorem shallowSlot_scope (scope : Scope) : ShallowSlot (scopeSlot scope) := by
  unfold scopeSlot
  split
  · exact shallowSlot_none
  · exact shallowSlot_some (Nat.zero_le _)

theorem shallowSlot_bag {bag : Bag} (h : bag.toJson.depth ≤ attributeDepth) :
    ShallowSlot (bagSlot bag) := by
  unfold bagSlot
  split
  · exact shallowSlot_none
  · exact shallowSlot_some h

/-- Where the attributes are shallow, every slot of the sealed form is. -/
theorem shallowSlot_of_mem_slots {claims : TokenClaims} (h : claims.common.delivery.Shallow) :
    ∀ slot ∈ slots claims, ShallowSlot slot.2 := by
  have htext (text : String) : ShallowSlot (some (.string text)) := shallowSlot_text (some text)
  have hinstant (i : Instant) : ShallowSlot (some (Json.int i.seconds)) :=
    shallowSlot_some (Nat.zero_le _)
  simp only [slots, List.forall_mem_cons]
  exact ⟨htext _, htext _, htext _, htext _, htext _, htext _, htext _, shallowSlot_text _,
    hinstant _, hinstant _, hinstant _, shallowSlot_text _, shallowSlot_texts _,
    shallowSlot_scope _, shallowSlot_text _, shallowSlot_text _, shallowSlot_texts _,
    shallowSlot_texts _, shallowSlot_bag h.general, shallowSlot_bag h.idToken,
    shallowSlot_bag h.userinfo, List.forall_mem_nil _⟩

/-- The sealed form is nested as deep as the attributes allow: it is within the limit of the reader
just when they are. -/
theorem depth_document_lt_iff {claims : TokenClaims} :
    (document claims).depth < 128 ↔ claims.common.delivery.Shallow := by
  refine ⟨shallow_of_depth, fun h => ?_⟩
  have hfields : Json.fieldsDepth (fields claims) ≤ attributeDepth := by
    refine Json.fieldsDepth_le fun name value hfield => ?_
    rw [fields_eq_present, present, List.mem_filterMap] at hfield
    obtain ⟨slot, hslot, hvalue⟩ := hfield
    obtain ⟨held, hheld, heq⟩ := Option.map_eq_some_iff.mp hvalue
    obtain ⟨-, rfl⟩ := Prod.mk.inj heq
    exact shallowSlot_of_mem_slots h slot hslot held hheld
  rw [attributeDepth] at hfields
  rw [document, Json.depth]
  omega

/-- Claims beyond the limit of the reader are no document to it, whatever else they say. -/
theorem decode_encode_of_le_depth {claims : TokenClaims} (h : 128 ≤ (document claims).depth) :
    decode (encode claims) claims.type = .error (.malformed .document) := by
  rw [decode_encode]
  cases hread : rereadDelivery? claims.common.delivery with
  | none => rfl
  | some read =>
    have hlt := depth_document_lt_iff.mpr (shallow_of_rereadDelivery? hread)
    omega

/-- Built claims with integers for the numbers of their attributes are readable if they can be
decoded at all. -/
theorem readable_of_decode_encode {claims read : TokenClaims} {expected : TokenType}
    (hbuilt : claims.common.Built) (hintegral : claims.common.delivery.Integral)
    (h : decode (encode claims) expected = .ok read) : claims.common.Readable := by
  obtain ⟨rfl, -, -⟩ := of_decode_encode h
  rw [decode_encode] at h
  cases hread : rereadDelivery? claims.common.delivery with
  | none => simp [hread] at h
  | some delivery =>
    exact ⟨hbuilt.wellFormed,
      rereadDelivery?_of_shallow hintegral (shallow_of_rereadDelivery? hread)⟩

end Wire

namespace Claims

/-- Built claims within the limit of the reader are readable. -/
theorem readable_of_depth {claims : TokenClaims} (hbuilt : claims.common.Built)
    (hintegral : claims.common.delivery.Integral) (hdepth : (Wire.document claims).depth < 128) :
    claims.common.Readable :=
  ⟨hbuilt.wellFormed, Wire.rereadDelivery?_of_shallow hintegral (Wire.shallow_of_depth hdepth)⟩

/-- What is derived from readable claims is readable. -/
theorem Readable.derive {claims derived : Claims} (hclaims : claims.Readable) {lifetime : Span}
    {now : Instant} {fresh : TokenId} (h : claims.derive lifetime now fresh = .ok derived) :
    derived.Readable := by
  have hwellFormed : derived.WellFormed := Built.wellFormed ⟨_, _, _, h⟩
  obtain ⟨expiry, -, -, rfl⟩ := spec_of_derive h
  exact ⟨hwellFormed, hclaims.delivery⟩

/-- Claims of a refresh that are cut down are well formed. -/
theorem WellFormed.narrowed {refresh : RefreshClaims} (h : refresh.common.WellFormed)
    (scope : Scope) : (refresh.narrowed scope).WellFormed := by
  unfold RefreshClaims.narrowed
  split
  · exact h
  · obtain ⟨hclient, hissuer, hsubject, hissuedAt, hexpiresAt, hauthTime, hlt⟩ := h
    exact ⟨hclient, hissuer, hsubject, hissuedAt, hexpiresAt, hauthTime, hlt⟩

/-- Claims of a refresh that are cut down are readable. -/
theorem Readable.narrowed {refresh : RefreshClaims} (h : refresh.common.Readable) (scope : Scope) :
    (refresh.narrowed scope).Readable := by
  refine ⟨h.wellFormed.narrowed scope, ?_⟩
  unfold RefreshClaims.narrowed
  split
  · exact h.delivery
  · rfl

end Claims

end OpaqueTokens
