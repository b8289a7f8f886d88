import OpaqueTokens.Proofs.Json.Documents

/-!
# Values read back

The tree of a value means that value again where its numbers are integers of sixty-four bits and
its lists and objects are nested no deeper than there is room for; where they are nested deeper it
means nothing. So whatever a tree means is nested no deeper than that, and putting it in order does
not nest it any deeper. The fields of a bag are in their order already, so collecting them again
changes nothing.
-/

namespace OpaqueTokens

namespace Json

mutual

/-- How deep the lists and objects of a value are nested. -/
def depth : Json → Nat
  | .array items => itemsDepth items + 1
  | .object fields => fieldsDepth fields + 1
  | .null | .bool _ | .number _ | .string _ => 0

/-- The depth of the deepest value of a list. -/
def itemsDepth : List Json → Nat
  | [] => 0
  | item :: rest => max item.depth (itemsDepth rest)

/-- The depth of the deepest value of the fields. -/
def fieldsDepth : List (String × Json) → Nat
  | [] => 0
  | (_, value) :: rest => max value.depth (fieldsDepth rest)

end

mutual

/-- The property of a value whose numbers all are integers that sixty-four bits hold, with a sign
or without. -/
def Integral : Json → Prop
  | .number (.integer n) => -9223372036854775808 ≤ n ∧ n < 18446744073709551616
  | .number (.double _) => False
  | .array items => ItemsIntegral items
  | .object fields => FieldsIntegral fields
  | .null | .bool _ | .string _ => True

/-- Every value of a list is integral. -/
def ItemsIntegral : List Json → Prop
  | [] => True
  | item :: rest => item.Integral ∧ ItemsIntegral rest

/-- The value of every field is integral. -/
def FieldsIntegral : List (String × Json) → Prop
  | [] => True
  | (_, value) :: rest => value.Integral ∧ FieldsIntegral rest

end

/-- A value is nested no deeper than the deepest field of its object. -/
theorem depth_le_fieldsDepth {fields : List (String × Json)} {name : String} {value : Json}
    (h : (name, value) ∈ fields) : value.depth ≤ fieldsDepth fields := by
  induction fields with
  | nil => simp at h
  | cons field rest ih =>
    obtain ⟨other, held⟩ := field
    rw [fieldsDepth]
    rcases List.mem_cons.mp h with heq | hin
    · injection heq with _ heq
      exact heq ▸ Nat.le_max_left _ _
    · exact Nat.le_trans (ih hin) (Nat.le_max_right _ _)

open Node (toJson? itemsToJson? fieldsToJson? textOf?_escaped)

mutual

/-- The tree of a value means that value. -/
theorem toJson?_toNode : (value : Json) → {room : Nat} → value.Integral → value.depth ≤ room →
    toJson? room value.toNode = some value
  | .null, _, _, _ => by simp [toNode, toJson?]
  | .bool b, _, _, _ => by simp [toNode, toJson?]
  | .string s, _, _, _ => by simp [toNode, toJson?, textOf?_escaped]
  | .number (.integer n), _, h, _ => by
    rw [Integral] at h
    simp [toNode, toJson?, Number.text_integer, Number.value?_integerText h.1 h.2]
  | .number (.double x), _, h, _ => by simp [Integral] at h
  | .array items, room, h, hdepth => by
    rw [depth] at hdepth
    rw [Integral] at h
    obtain ⟨room, rfl⟩ := Nat.exists_eq_add_of_le' (Nat.le_trans (Nat.le_add_left _ _) hdepth)
    simp [toNode, toJson?, itemsToJson?_itemNodes items h (Nat.le_of_succ_le_succ hdepth)]
  | .object fields, room, h, hdepth => by
    rw [depth] at hdepth
    rw [Integral] at h
    obtain ⟨room, rfl⟩ := Nat.exists_eq_add_of_le' (Nat.le_trans (Nat.le_add_left _ _) hdepth)
    simp [toNode, toJson?, fieldsToJson?_fieldNodes fields h (Nat.le_of_succ_le_succ hdepth)]

/-- The trees of values mean those values. -/
theorem itemsToJson?_itemNodes : (items : List Json) → {room : Nat} → ItemsIntegral items →
    itemsDepth items ≤ room → itemsToJson? room (itemNodes items) = some items
  | [], _, _, _ => by simp [itemNodes, itemsToJson?]
  | item :: rest, room, h, hdepth => by
    rw [ItemsIntegral] at h
    rw [itemsDepth] at hdepth
    simp [itemNodes, itemsToJson?, toJson?_toNode item h.1 (by omega : item.depth ≤ room),
      itemsToJson?_itemNodes rest h.2 (by omega : itemsDepth rest ≤ room)]

/-- The fields of an object mean those fields. -/
theorem fieldsToJson?_fieldNodes : (fields : List (String × Json)) → {room : Nat} →
    FieldsIntegral fields → fieldsDepth fields ≤ room →
    fieldsToJson? room (fieldNodes fields) = some fields
  | [], _, _, _ => by simp [fieldNodes, fieldsToJson?]
  | (name, value) :: rest, room, h, hdepth => by
    rw [FieldsIntegral] at h
    rw [fieldsDepth] at hdepth
    simp [fieldNodes, fieldsToJson?, textOf?_escaped,
      toJson?_toNode value h.1 (by omega : value.depth ≤ room),
      fieldsToJson?_fieldNodes rest h.2 (by omega : fieldsDepth rest ≤ room)]

end

/-- Fields of values that all are nested no deeper than a depth are not either. -/
theorem fieldsDepth_le {fields : List (String × Json)} {depth : Nat}
    (h : ∀ name value, (name, value) ∈ fields → value.depth ≤ depth) :
    fieldsDepth fields ≤ depth := by
  induction fields with
  | nil => exact Nat.zero_le depth
  | cons field rest ih =>
    obtain ⟨name, value⟩ := field
    rw [fieldsDepth]
    exact Nat.max_le.mpr ⟨h name value List.mem_cons_self,
      ih fun other held hheld => h other held (List.mem_cons_of_mem _ hheld)⟩

mutual

/-- The tree of a value that is nested deeper than there is room for means nothing. -/
theorem toJson?_toNode_of_lt : (value : Json) → {room : Nat} → room < value.depth →
    toJson? room value.toNode = none
  | .null, _, h | .bool _, _, h | .number _, _, h | .string _, _, h => by simp [depth] at h
  | .array items, 0, _ => by simp [toNode, toJson?]
  | .object fields, 0, _ => by simp [toNode, toJson?]
  | .array items, room + 1, h => by
    rw [depth] at h
    simp [toNode, toJson?, itemsToJson?_itemNodes_of_lt items (Nat.lt_of_succ_lt_succ h)]
  | .object fields, room + 1, h => by
    rw [depth] at h
    simp [toNode, toJson?, fieldsToJson?_fieldNodes_of_lt fields (Nat.lt_of_succ_lt_succ h)]

/-- The trees of values mean nothing if one of the values is nested too deep. -/
theorem itemsToJson?_itemNodes_of_lt : (items : List Json) → {room : Nat} →
    room < itemsDepth items → itemsToJson? room (itemNodes items) = none
  | [], _, h => by simp [itemsDepth] at h
  | item :: rest, room, h => by
    rw [itemsDepth] at h
    rcases (by omega : room < item.depth ∨ room < itemsDepth rest) with hitem | hrest
    · simp [itemNodes, itemsToJson?, toJson?_toNode_of_lt item hitem]
    · simp [itemNodes, itemsToJson?, itemsToJson?_itemNodes_of_lt rest hrest]

/-- The fields of an object mean nothing if the value of one of them is nested too deep. -/
theorem fieldsToJson?_fieldNodes_of_lt : (fields : List (String × Json)) → {room : Nat} →
    room < fieldsDepth fields → fieldsToJson? room (fieldNodes fields) = none
  | [], _, h => by simp [fieldsDepth] at h
  | (name, value) :: rest, room, h => by
    rw [fieldsDepth] at h
    rcases (by omega : room < value.depth ∨ room < fieldsDepth rest) with hvalue | hrest
    · simp [fieldNodes, fieldsToJson?, toJson?_toNode_of_lt value hvalue]
    · simp [fieldNodes, fieldsToJson?, fieldsToJson?_fieldNodes_of_lt rest hrest]

end

/-- A name past all others is put last. -/
theorem insertField_of_lt {name : String} {value : Json} {fields : List (String × Json)}
    (h : ∀ field ∈ fields, field.1 < name) :
    insertField name value fields = fields ++ [(name, value)] := by
  induction fields with
  | nil => rfl
  | cons head rest ih =>
    obtain ⟨other, held⟩ := head
    rw [List.forall_mem_cons] at h
    have hlt : ¬name < other := String.lt_asymm h.1
    have hne : name ≠ other := fun heq => String.lt_irrefl other (heq ▸ h.1)
    simp [insertField, hlt, hne, ih h.2]

mutual

/-- A value that is normal is its own normal form. -/
theorem normalize_of_isNormal : (value : Json) → value.IsNormal → value.normalize = value
  | .null, _ | .bool _, _ | .number _, _ | .string _, _ => by simp [normalize]
  | .array items, h => by
    rw [IsNormal] at h
    rw [normalize, normalizeItems_of_allNormal items h]
  | .object fields, h => by
    rw [IsNormal] at h
    rw [normalize, normalizeFields_of_fieldsNormal [] fields h.1 h.2, List.nil_append]

/-- Values that are normal are their own normal forms. -/
theorem normalizeItems_of_allNormal : (items : List Json) → AllNormal items →
    normalizeItems items = items
  | [], _ => by simp [normalizeItems]
  | item :: rest, h => by
    rw [AllNormal] at h
    rw [normalizeItems, normalize_of_isNormal item h.1, normalizeItems_of_allNormal rest h.2]

/-- Normal fields that lie past all others in order are put after them as they are. -/
theorem normalizeFields_of_fieldsNormal : (sorted fields : List (String × Json)) →
    (sorted ++ fields).Pairwise (·.1 < ·.1) → FieldsNormal fields →
    normalizeFields sorted fields = sorted ++ fields
  | sorted, [], _, _ => by simp [normalizeFields]
  | sorted, (name, value) :: rest, hsorted, h => by
    rw [FieldsNormal] at h
    have hpast : ∀ field ∈ sorted, field.1 < name := fun field hfield =>
      (List.pairwise_append.mp hsorted).2.2 field hfield (name, value) List.mem_cons_self
    rw [normalizeFields, normalize_of_isNormal value h.1, insertField_of_lt hpast,
      normalizeFields_of_fieldsNormal (sorted ++ [(name, value)]) rest (by simpa using hsorted) h.2]
    simp

end

mutual

/-- A value is nested no deeper than there was room for. -/
theorem depth_le_of_toJson? : (node : Node) → {room : Nat} → {value : Json} →
    toJson? room node = some value → value.depth ≤ room
  | .null, _, _, h | .bool _, _, _, h => by
    simp only [toJson?, Option.some.injEq] at h
    rw [← h, depth]
    exact Nat.zero_le _
  | .number _, _, _, h | .string _, _, _, h => by
    simp only [toJson?, Option.map_eq_some_iff] at h
    obtain ⟨_, -, rfl⟩ := h
    rw [depth]
    exact Nat.zero_le _
  | .array _, 0, _, h | .object _, 0, _, h => by simp [toJson?] at h
  | .array items, room + 1, _, h => by
    rw [toJson?] at h
    obtain ⟨values, hvalues, rfl⟩ := Option.map_eq_some_iff.mp h
    rw [depth]
    exact Nat.succ_le_succ (itemsDepth_le_of_itemsToJson? items hvalues)
  | .object fields, room + 1, _, h => by
    rw [toJson?] at h
    obtain ⟨values, hvalues, rfl⟩ := Option.map_eq_some_iff.mp h
    rw [depth]
    exact Nat.succ_le_succ (fieldsDepth_le_of_fieldsToJson? fields hvalues)

/-- The values of a list are nested no deeper than there was room for. -/
theorem itemsDepth_le_of_itemsToJson? : (items : List Node) → {room : Nat} →
    {values : List Json} → itemsToJson? room items = some values → itemsDepth values ≤ room
  | [], _, _, h => by
    rw [itemsToJson?, Option.some.injEq] at h
    rw [← h, itemsDepth]
    exact Nat.zero_le _
  | item :: rest, room, _, h => by
    rw [itemsToJson?] at h
    obtain ⟨value, hvalue, h⟩ := Option.bind_eq_some_iff.mp h
    obtain ⟨values, hvalues, h⟩ := Option.bind_eq_some_iff.mp h
    obtain rfl := Option.some.inj h
    rw [itemsDepth]
    exact Nat.max_le.mpr ⟨depth_le_of_toJson? item hvalue,
      itemsDepth_le_of_itemsToJson? rest hvalues⟩

/-- The values of fields are nested no deeper than there was room for. -/
theorem fieldsDepth_le_of_fieldsToJson? : (fields : List (List UInt8 × Node)) → {room : Nat} →
    {values : List (String × Json)} → fieldsToJson? room fields = some values →
    fieldsDepth values ≤ room
  | [], _, _, h => by
    rw [fieldsToJson?, Option.some.injEq] at h
    rw [← h, fieldsDepth]
    exact Nat.zero_le _
  | (name, node) :: rest, room, _, h => by
    rw [fieldsToJson?] at h
    obtain ⟨text, -, h⟩ := Option.bind_eq_some_iff.mp h
    obtain ⟨value, hvalue, h⟩ := Option.bind_eq_some_iff.mp h
    obtain ⟨values, hvalues, h⟩ := Option.bind_eq_some_iff.mp h
    obtain rfl := Option.some.inj h
    rw [fieldsDepth]
    exact Nat.max_le.mpr ⟨depth_le_of_toJson? node hvalue,
      fieldsDepth_le_of_fieldsToJson? rest hvalues⟩

end

/-- After an insertion fields are nested no deeper than the fields before and the new value. -/
theorem fieldsDepth_insertField_le (name : String) (value : Json)
    (fields : List (String × Json)) :
    fieldsDepth (insertField name value fields) ≤ max value.depth (fieldsDepth fields) := by
  refine fieldsDepth_le fun other held hfield => ?_
  rcases mem_insertField hfield with heq | hin
  · exact (Prod.mk.inj heq).2 ▸ Nat.le_max_left _ _
  · exact Nat.le_trans (depth_le_fieldsDepth hin) (Nat.le_max_right _ _)

mutual

/-- The normal form of a value is nested no deeper than the value. -/
theorem depth_normalize_le : (value : Json) → value.normalize.depth ≤ value.depth
  | .null | .bool _ | .number _ | .string _ => by simp [normalize]
  | .array items => by
    rw [normalize, depth, depth]
    exact Nat.succ_le_succ (itemsDepth_normalizeItems_le items)
  | .object fields => by
    have hfields := fieldsDepth_normalizeFields_le [] fields
    rw [fieldsDepth, Nat.zero_max] at hfields
    rw [normalize, depth, depth]
    exact Nat.succ_le_succ hfields

/-- The normal forms of values are nested no deeper than the values. -/
theorem itemsDepth_normalizeItems_le : (items : List Json) →
    itemsDepth (normalizeItems items) ≤ itemsDepth items
  | [] => by simp [normalizeItems]
  | item :: rest => by
    have hitem := depth_normalize_le item
    have hrest := itemsDepth_normalizeItems_le rest
    rw [normalizeItems, itemsDepth, itemsDepth]
    omega

/-- Collected fields are nested no deeper than the ones before and the ones put into them. -/
theorem fieldsDepth_normalizeFields_le : (sorted fields : List (String × Json)) →
    fieldsDepth (normalizeFields sorted fields) ≤ max (fieldsDepth sorted) (fieldsDepth fields)
  | sorted, [] => by simp [normalizeFields, fieldsDepth]
  | sorted, (name, value) :: rest => by
    have hvalue := depth_normalize_le value
    have hinsert := fieldsDepth_insertField_le name value.normalize sorted
    have hrest := fieldsDepth_normalizeFields_le (insertField name value.normalize sorted) rest
    rw [normalizeFields, fieldsDepth]
    omega

end
end Json

/-- A bag is collected from its own fields. -/
theorem Bag.ofFields_fields (bag : Bag) : ofFields bag.fields = bag :=
  Bag.ext (Json.normalizeFields_of_fieldsNormal [] bag.fields bag.sorted bag.normal)

/-- A bag is nested no deeper than the object that it was collected from. -/
theorem Bag.depth_ofFields_le (fields : List (String × Json)) :
    (ofFields fields).toJson.depth ≤ (Json.object fields).depth :=
  Json.depth_normalize_le (.object fields)

end OpaqueTokens
