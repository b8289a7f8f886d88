import OpaqueTokens.Claims.WireReader
import OpaqueTokens.Proofs.Json.Values
import OpaqueTokens.Proofs.Scope
import OpaqueTokens.Proofs.Time.Instant

/-!
# Fields of the sealed form

The sealed form has a slot for each of its fields, which is filled or left out. The names of the
slots are distinct, so a reader that asks for a name finds what its slot holds and nothing else.
Each kind of field is then read back as it was written, with its default where it was left out.
-/

namespace OpaqueTokens.Wire

open Json (Node int)
open Json.Node (textOf?_escaped)
open Time (Instant)

/-- The fields of the slots that are filled. -/
def present (slots : List (String × Option Json)) : List (String × Json) :=
  slots.filterMap fun (name, value) => value.map (name, ·)

theorem present_append (a b : List (String × Option Json)) :
    present (a ++ b) = present a ++ present b :=
  List.filterMap_append

/-- What the slot of texts holds. -/
def textsSlot (texts : List String) : Option Json :=
  if texts = [] then none else some (.array (texts.map .string))

/-- What the slot of a scope holds. -/
def scopeSlot (scope : Scope) : Option Json :=
  if scope.isEmpty then none else some (.string scope.joined)

/-- What the slot of attributes holds. -/
def bagSlot (bag : Bag) : Option Json :=
  if bag.isEmpty then none else some bag.toJson

theorem field_eq_present (name : String) (value : Json) :
    field name value = present [(name, some value)] := rfl

theorem optionalField_eq_present (name : String) (text : Option String) :
    optionalField name text = present [(name, text.map .string)] := by
  cases text <;> rfl

theorem textsField_eq_present (name : String) (texts : List String) :
    textsField name texts = present [(name, textsSlot texts)] := by
  cases texts <;> rfl

theorem scopeField_eq_present (name : String) (scope : Scope) :
    scopeField name scope = present [(name, scopeSlot scope)] := by
  unfold scopeField scopeSlot
  split <;> rfl

theorem bagField_eq_present (name : String) (bag : Bag) :
    bagField name bag = present [(name, bagSlot bag)] := by
  unfold bagField bagSlot
  split <;> rfl

/-- The slots of the sealed form in their order. -/
def slots (claims : TokenClaims) : List (String × Option Json) :=
  let c := claims.common
  [("typ", some (.string claims.type.name)),
   ("jti", some (.string c.id.text)),
   ("lin", some (.string c.lineage.text)),
   ("cid", some (.string c.clientId.text)),
   ("iss", some (.string c.issuer)),
   ("usr", some (.string c.principal)),
   ("sub", some (.string c.subject)),
   ("acr", c.acr.map .string),
   ("iat", some (int c.issuedAt.seconds)),
   ("exp", some (int c.expiresAt.seconds)),
   ("ath", some (int c.authTime.seconds)),
   ("rdu", c.redirectUri.map .string),
   ("aud", textsSlot c.audience),
   ("scp", scopeSlot c.scope),
   ("nnc", c.nonce.map .string),
   ("cch", claims.codeChallenge.map .string),
   ("cns", textsSlot c.consent.consentable),
   ("csd", textsSlot c.consent.consented),
   ("dlv", bagSlot c.delivery.general),
   ("dli", bagSlot c.delivery.idToken),
   ("dlu", bagSlot c.delivery.userinfo)]

/-- The names of the slots are distinct. -/
theorem nodup_slots (claims : TokenClaims) : ((slots claims).map (·.1)).Nodup := by
  simp only [slots, List.map_cons, List.map_nil]
  decide

/-- The fields of the sealed form are those of its filled slots. -/
theorem fields_eq_present (claims : TokenClaims) : fields claims = present (slots claims) := by
  unfold fields slots
  simp only [field_eq_present, optionalField_eq_present, textsField_eq_present,
    scopeField_eq_present, bagField_eq_present, ← present_append, List.cons_append,
    List.nil_append]

/-- Fields with the trees of their values. -/
def named (fields : List (String × Json)) : List (String × Node) :=
  fields.map fun (name, value) => (name, value.toNode)

/-- The fields of the tree of an object. -/
theorem documentFields?_toNode (fields : List (String × Json)) :
    documentFields? (Json.object fields).toNode = some (named fields) := by
  rw [Json.toNode, documentFields?]
  induction fields with
  | nil => simp [Json.fieldNodes, named]
  | cons field rest ih =>
    obtain ⟨name, value⟩ := field
    simp [Json.fieldNodes, textOf?_escaped, ih, named]

/-- No slot of a list has a name, so no field of the list does. -/
theorem valuesOf_eq_nil {slots : List (String × Option Json)} {name : String}
    (h : name ∉ slots.map (·.1)) : valuesOf (named (present slots)) name = [] := by
  simp only [valuesOf, named, present, List.filterMap_eq_nil_iff, List.mem_map, List.mem_filterMap]
  rintro _ ⟨_, ⟨slot, hslot, hvalue⟩, rfl⟩
  obtain ⟨value, -, rfl⟩ := Option.map_eq_some_iff.mp hvalue
  have hne : slot.1 ≠ name := fun heq => h (heq ▸ List.mem_map_of_mem hslot)
  simp [hne]

/-- The values of a name are what the slot of the name holds. -/
theorem valuesOf_present {slots : List (String × Option Json)} {name : String}
    {value : Option Json} (hdistinct : (slots.map (·.1)).Nodup) (h : (name, value) ∈ slots) :
    valuesOf (named (present slots)) name = (value.map Json.toNode).toList := by
  induction slots with
  | nil => simp at h
  | cons slot rest ih =>
    obtain ⟨hfresh, hrest⟩ := List.nodup_cons.mp hdistinct
    have hsplit : valuesOf (named (present (slot :: rest))) name =
        valuesOf (named (present [slot])) name ++ valuesOf (named (present rest)) name := by
      rw [← List.singleton_append, present_append]
      simp [valuesOf, named, List.filterMap_append]
    rw [hsplit]
    rcases List.mem_cons.mp h with rfl | hin
    · rw [valuesOf_eq_nil hfresh, List.append_nil]
      cases value <;> simp [valuesOf, named, present]
    · have hne : slot.1 ≠ name := by
        rintro rfl
        exact hfresh (List.mem_map.mpr ⟨_, hin, rfl⟩)
      rw [ih hrest hin, valuesOf_eq_nil (by simpa using hne.symm), List.nil_append]

/-- A list of fields in which a name occurs just as its slot says. -/
def Holds (fields : List (String × Node)) (name : String) (value : Option Json) : Prop :=
  valuesOf fields name = (value.map Json.toNode).toList

/-- Each slot of the sealed form is held by its fields. -/
theorem holds_of_mem_slots (claims : TokenClaims) {name : String} {value : Option Json}
    (h : (name, value) ∈ slots claims) : Holds (named (fields claims)) name value := by
  rw [Holds, fields_eq_present]
  exact valuesOf_present (nodup_slots claims) h

/-- A text that may be left out is read back. -/
theorem Holds.text {fields : List (String × Node)} {name : String} {text : Option String}
    (h : Holds fields name (text.map .string)) : optional? Node.text? fields name = some text := by
  rw [optional?, show valuesOf fields name = _ from h]
  cases text <;> simp [Json.toNode, Node.text?, textOf?_escaped]

/-- An integer of sixty-four bits with a sign is read back. -/
theorem Holds.integer {fields : List (String × Node)} {name : String} {n : Int}
    (h : Holds fields name (some (int n)))
    (hbounds : -9223372036854775808 ≤ n ∧ n < 9223372036854775808) :
    optional? Node.integer? fields name = some (some n) := by
  obtain ⟨hlow, hhigh⟩ := hbounds
  have hvalue := Json.Number.value?_integerText hlow (by omega : n < 18446744073709551616)
  rw [optional?, show valuesOf fields name = _ from h]
  simp [int, Json.toNode, Node.integer?, Json.Number.text_integer, Json.NumberText.integer?,
    hvalue]
  omega

/-- The trees of texts are read back. -/
theorem mapM_text?_itemNodes (texts : List String) :
    (Json.itemNodes (texts.map .string)).mapM Node.text? = some texts := by
  induction texts with
  | nil => simp [Json.itemNodes]
  | cons text rest ih =>
    simp [Json.itemNodes, Json.toNode, Node.text?, textOf?_escaped, ih]

/-- Texts are read back, none if they were left out. -/
theorem Holds.texts {fields : List (String × Node)} {name : String} {texts : List String}
    (h : Holds fields name (textsSlot texts)) :
    defaulted? Node.texts? [] fields name = some texts := by
  rw [defaulted?, show valuesOf fields name = _ from h, textsSlot]
  by_cases hempty : texts = []
  · simp [hempty]
  · simp [hempty, Json.toNode, Node.texts?, mapM_text?_itemNodes]

/-- A scope is read back from its joined form, empty if it was left out. -/
theorem Holds.scope {fields : List (String × Node)} {name : String} {scope : Scope}
    (h : Holds fields name (scopeSlot scope)) :
    defaulted? (fun value => value.text?.map Scope.ofText) .empty fields name = some scope := by
  rw [defaulted?, show valuesOf fields name = _ from h, scopeSlot]
  by_cases hempty : scope.isEmpty
  · have hscope : scope = .empty := Scope.ext (List.isEmpty_iff.mp hempty)
    subst hscope
    simp [hempty]
  · simp [hempty, Json.toNode, Node.text?, textOf?_escaped, Scope.ofText_joined]

/-- Attributes as they are read back, none where they are too deep or hold a number that has no
value. -/
def rereadBag? (bag : Bag) : Option Bag :=
  if bag.isEmpty then some .empty else bag? bag.toJson.toNode

/-- A field of attributes is read as its attributes are. -/
theorem Holds.bag {fields : List (String × Node)} {name : String} {bag : Bag}
    (h : Holds fields name (bagSlot bag)) :
    defaulted? bag? .empty fields name = rereadBag? bag := by
  rw [defaulted?, show valuesOf fields name = _ from h, bagSlot, rereadBag?]
  by_cases hempty : bag.isEmpty <;> simp [hempty]

/-- Attributes with integers for numbers are read back, unless they are too deep. -/
theorem rereadBag?_of_integral {bag : Bag} (h : Json.FieldsIntegral bag.fields)
    (hdepth : bag.toJson.depth ≤ attributeDepth) : rereadBag? bag = some bag := by
  rw [rereadBag?]
  by_cases hempty : bag.isEmpty
  · have hbag : bag = .empty := Bag.ext (List.isEmpty_iff.mp hempty)
    subst hbag
    simp [hempty]
  · have hjson : bag.toJson.toNode.toJson? attributeDepth = some bag.toJson :=
      Json.toJson?_toNode bag.toJson (by simpa [Bag.toJson, Json.Integral] using h) hdepth
    simp only [hempty, Bool.false_eq_true, if_false, bag?, hjson]
    simp [Bag.toJson, Bag.ofFields_fields]

end OpaqueTokens.Wire
