import OpaqueTokens.Proofs.Cache.Lookup
import OpaqueTokens.Proofs.Seal.Sealer

/-!
# Rings that grow

A key is replaced by starting a ring with the new key and adding the old ones, so a ring must not
lose by growing. An added key is looked at only for envelopes that name its identifier, and a ring
without this identifier has reported all of these as tampered with. Whatever else it has answered
stays as it was, and so does what it seals.
-/

namespace OpaqueTokens

/-- A text is the unpadded URL-safe text of bytes that begin with the header of an identifier. -/
def Envelope.Names (text id : String) : Prop :=
  ∃ rest, text = Text.Base64.encodeUrl (header id ++ rest)

/-- An envelope names the identifier whose bytes it has in its header. -/
theorem Envelope.names_iff {text id : String} (hid : (Text.utf8 id).length < 256)
    {parts : Parts} (hparts : (Text.Base64.decodeUrl? text).bind split? = some parts) :
    Names text id ↔ parts.keyId = Text.utf8 id := by
  obtain ⟨bytes, hbytes, hsplit⟩ := Option.bind_eq_some_iff.mp hparts
  have hjoins := joins_of_split? hsplit
  constructor
  · rintro ⟨rest, rfl⟩
    rw [Text.Base64.decodeUrl?_encodeUrl, Option.some.injEq] at hbytes
    have hheads := hjoins.joined.trans hbytes.symm
    rw [hjoins.header_eq, header, List.append_assoc, List.cons_append, List.cons_append,
      List.cons_append, List.cons_append, List.cons.injEq, List.cons.injEq] at hheads
    obtain ⟨-, hbyte, hrest⟩ := hheads
    -- Both lengths fit in their byte, so that equal bytes are equal lengths.
    have hlength : parts.keyId.length = (Text.utf8 id).length := by
      have hkeyId := hjoins.length_keyId
      have hnumbers := congrArg UInt8.toNat hbyte
      rwa [UInt8.toNat_ofNat', UInt8.toNat_ofNat', Nat.mod_eq_of_lt hkeyId,
        Nat.mod_eq_of_lt hid] at hnumbers
    exact (List.append_inj hrest hlength).1
  · intro hkeyId
    refine ⟨parts.nonce ++ parts.hidden, ?_⟩
    rw [header, ← hkeyId, ← hjoins.header_eq, ← List.append_assoc, hjoins.joined,
      Text.Base64.decodeUrl?_eq_some_iff.mp hbytes]

namespace Keyring

open Crypto (Aead)
open Time (Instant)

/-- A ring with several keys more, which are added one after the other. -/
def addAll (ring : Keyring) (additions : List (String × SealerKey)) :
    Except ConfigError Keyring :=
  additions.foldlM (fun ring addition => ring.add addition.1 addition.2) ring

variable {ring grown : Keyring} {id : String} {key : SealerKey}

/-- Adding fails just when the identifier is not accepted or has a key already. -/
theorem add_eq_error_iff : (∃ error, ring.add id key = .error error) ↔
    ¬Envelope.FitsHeader id ∨ id ∈ ring.keys.map (·.1) := by
  have hregistered : id ∈ ring.keys.map (·.1) ↔ ring.find? id ≠ none := by
    rw [ne_eq, find?_eq_none_iff, not_not]
  rw [hregistered, ← checkId_eq_ok_iff_fitsHeader, add]
  cases checkId id with
  | error error => simp
  | ok => cases ring.find? id <;> simp [pure, Except.pure]

/-- An added identifier has the added key, and every other one the key that it had. -/
theorem find?_add (h : ring.add id key = .ok grown) (other : String) :
    grown.find? other = if other = id then some key else ring.find? other := by
  obtain ⟨-, hfresh, rfl⟩ := add_eq_ok_iff.mp h
  rw [find?] at hfresh ⊢
  rw [List.lookup_append]
  split
  · rename_i hsame
    rw [hsame, hfresh, Option.none_or, List.lookup_cons_self]
  · rename_i hother
    rw [List.lookup_cons, beq_false_of_ne hother]
    simp [find?]

/-- The identifier of a ring that was added to is the one it had. -/
theorem currentId_add (h : ring.add id key = .ok grown) : grown.currentId = ring.currentId := by
  obtain ⟨-, -, rfl⟩ := add_eq_ok_iff.mp h
  rfl

/-- An identifier that was added fits in an envelope. -/
theorem length_lt_of_add (h : ring.add id key = .ok grown) : (Text.utf8 id).length < 256 :=
  Nat.lt_succ_of_le (checkId_eq_ok_iff_fitsHeader.mp (add_eq_ok_iff.mp h).1).2

/-- What a ring answers to a text depends only on the key that it has for the identifier in it. -/
theorem unsealPayload_congr {other : Keyring} {text : String}
    (h : ∀ parts, (Text.Base64.decodeUrl? text).bind Envelope.split? = some parts →
      other.keyOf? parts = ring.keyOf? parts) (cipher : Aead) (clock : Instant) :
    other.unsealPayload cipher clock text = ring.unsealPayload cipher clock text := by
  cases hparts : (Text.Base64.decodeUrl? text).bind Envelope.split? with
  | none => simp only [unsealPayload, hparts]
  | some parts => simp only [unsealPayload, hparts, h parts hparts]

/-- An envelope is tampered with where its identifier has no key. -/
theorem unsealPayload_of_find?_eq_none {text : String} {parts : Envelope.Parts}
    (hparts : (Text.Base64.decodeUrl? text).bind Envelope.split? = some parts)
    (hkeyId : parts.keyId = Text.utf8 id) (hfind : ring.find? id = none) (cipher : Aead)
    (clock : Instant) : ring.unsealPayload cipher clock text = .error .tampered := by
  have hkeyOf : ring.keyOf? parts = none := by
    rw [keyOf?, hkeyId, Text.ofUtf8?_utf8, Option.bind_some, hfind]
  simp only [unsealPayload, hparts, hkeyOf]

/-- A ring keeps its answer to every text when a key is added, unless the text names the identifier
of this key. -/
theorem unsealPayload_add_of_not_names (h : ring.add id key = .ok grown) {text : String}
    (hnames : ¬Envelope.Names text id) (cipher : Aead) (clock : Instant) :
    grown.unsealPayload cipher clock text = ring.unsealPayload cipher clock text := by
  refine unsealPayload_congr (fun parts hparts => ?_) cipher clock
  rw [Envelope.names_iff (length_lt_of_add h) hparts] at hnames
  cases hid : Text.ofUtf8? parts.keyId with
  | none => simp only [keyOf?, hid, Option.bind_none]
  | some other =>
    have hother : other ≠ id := fun hsame => hnames (hsame ▸ (Text.utf8_of_ofUtf8? hid).symm)
    simp only [keyOf?, hid, Option.bind_some, find?_add h, if_neg hother]

/-- Adding a key changes the answer to a text only if the text names the identifier of this key and
was reported as tampered with. -/
theorem unsealPayload_add (h : ring.add id key = .ok grown) (cipher : Aead) (clock : Instant)
    (text : String) :
    grown.unsealPayload cipher clock text = ring.unsealPayload cipher clock text ∨
      ring.unsealPayload cipher clock text = .error .tampered ∧ Envelope.Names text id := by
  by_cases hnames : Envelope.Names text id
  · cases hparts : (Text.Base64.decodeUrl? text).bind Envelope.split? with
    | none => exact .inl (by simp only [unsealPayload, hparts])
    | some parts =>
      have hkeyId := (Envelope.names_iff (length_lt_of_add h) hparts).mp hnames
      have hfresh := (add_eq_ok_iff.mp h).2.1
      exact .inr ⟨unsealPayload_of_find?_eq_none hparts hkeyId hfresh cipher clock, hnames⟩
  · exact .inl (unsealPayload_add_of_not_names h hnames cipher clock)

/-- The ring grows, but it seals as before: its identifier has the key that it had. -/
theorem sealPayload_add (h : ring.add id key = .ok grown) (hring : ring.Sound) (cipher : Aead)
    (payload : List UInt8) (expiry : Int) (nonce : Nonce) :
    grown.sealPayload cipher payload expiry nonce =
      ring.sealPayload cipher payload expiry nonce := by
  obtain ⟨current, hcurrent⟩ := hring.current
  have hne : ring.currentId ≠ id := by
    rintro rfl
    rw [(add_eq_ok_iff.mp h).2.1] at hcurrent
    cases hcurrent
  rw [sealPayload, sealPayload, currentId_add h, find?_add h, if_neg hne]

/-- A ring answers as another one did, apart from envelopes of some identifiers that the other one
reported as tampered with, and it seals the same. -/
structure Conservative (cipher : Aead) (ids : List String) (ring grown : Keyring) : Prop where
  unseals : ∀ clock text,
    grown.unsealPayload cipher clock text = ring.unsealPayload cipher clock text ∨
      ring.unsealPayload cipher clock text = .error .tampered ∧ ∃ id ∈ ids, Envelope.Names text id
  seals : ∀ payload expiry nonce,
    grown.sealPayload cipher payload expiry nonce = ring.sealPayload cipher payload expiry nonce

theorem Conservative.refl (cipher : Aead) (ring : Keyring) : Conservative cipher [] ring ring :=
  ⟨fun _ _ => .inl rfl, fun _ _ _ => rfl⟩

/-- Growing further adds the identifiers of which envelopes may be answered otherwise. -/
theorem Conservative.trans {cipher : Aead} {ids later : List String} {last : Keyring}
    (h : Conservative cipher ids ring grown) (hlater : Conservative cipher later grown last) :
    Conservative cipher (ids ++ later) ring last where
  unseals := fun clock text => by
    rcases h.unseals clock text with hsame | ⟨htampered, id, hid, hnames⟩
    · rcases hlater.unseals clock text with hlast | ⟨htampered, id, hid, hnames⟩
      · exact .inl (hlast.trans hsame)
      · exact .inr ⟨hsame ▸ htampered, id, List.mem_append_right ids hid, hnames⟩
    · exact .inr ⟨htampered, id, List.mem_append_left later hid, hnames⟩
  seals := fun payload expiry nonce =>
    (hlater.seals payload expiry nonce).trans (h.seals payload expiry nonce)

/-- Adding a key is conservative but for envelopes of its identifier. -/
theorem conservative_add (h : ring.add id key = .ok grown) (hring : ring.Sound) (cipher : Aead) :
    Conservative cipher [id] ring grown where
  unseals := fun clock text => by simpa using unsealPayload_add h cipher clock text
  seals := sealPayload_add h hring cipher

/-- Several keys are added just when the first can be, and the others to what that gives. -/
theorem addAll_cons_eq_ok_iff {additions : List (String × SealerKey)} :
    ring.addAll ((id, key) :: additions) = .ok grown ↔
      ∃ next, ring.add id key = .ok next ∧ next.addAll additions = .ok grown :=
  Outcome.bind_eq_ok_iff

/-- Rings that were added to can be made. -/
theorem Reachable.addAll {additions : List (String × SealerKey)} (hring : ring.Reachable)
    (h : ring.addAll additions = .ok grown) : grown.Reachable := by
  induction additions generalizing ring with
  | nil => exact Except.ok.inj h ▸ hring
  | cons addition additions ih =>
    obtain ⟨next, hnext, hrest⟩ := addAll_cons_eq_ok_iff.mp h
    exact ih (hring.add hnext) hrest

/-- Adding keys, however many, is conservative but for envelopes of their identifiers. -/
theorem conservative_addAll {additions : List (String × SealerKey)} (hring : ring.Reachable)
    (h : ring.addAll additions = .ok grown) (cipher : Aead) :
    Conservative cipher (additions.map (·.1)) ring grown := by
  induction additions generalizing ring with
  | nil => exact Except.ok.inj h ▸ .refl cipher ring
  | cons addition additions ih =>
    obtain ⟨next, hnext, hrest⟩ := addAll_cons_eq_ok_iff.mp h
    exact (conservative_add hnext hring.sound cipher).trans (ih (hring.add hnext) hrest)

/-- A ring that was added to has its keys and then the added ones, and its own identifier. -/
theorem eq_of_addAll {additions : List (String × SealerKey)}
    (h : ring.addAll additions = .ok grown) :
    grown = { ring with keys := ring.keys ++ additions } := by
  induction additions generalizing ring with
  | nil => simpa using (Except.ok.inj h).symm
  | cons addition additions ih =>
    obtain ⟨next, hnext, hrest⟩ := addAll_cons_eq_ok_iff.mp h
    obtain ⟨-, -, rfl⟩ := add_eq_ok_iff.mp hnext
    rw [ih hrest, List.append_assoc]
    rfl

/-- A ring finds exactly the keys that it has. -/
theorem Sound.find?_eq_some_iff (h : ring.Sound) :
    ring.find? id = some key ↔ (id, key) ∈ ring.keys :=
  Cache.lookup_eq_some_iff h.distinct

/-- Sealing fails in the cipher only: the current key is always there. -/
theorem sealPayload_ne_missing (hring : ring.Sound) (cipher : Aead) (payload : List UInt8)
    (expiry : Int) (nonce : Nonce) : ring.sealPayload cipher payload expiry nonce ≠
      .error (.encryption "current key missing from keyring") := by
  obtain ⟨current, hcurrent⟩ := hring.current
  simp only [sealPayload, hcurrent]
  split
  · simp
  · simp

/-- However many keys are added to a ring, its identifier stays the first one, with the key that it
was made with. The identifiers stay distinct and of one to 255 bytes, and each has the key that was
added for it; adding another key fails just when this would not be so. Adding one changes nothing of
what is sealed, and nothing of what is unsealed but for envelopes that name its identifier, which
were reported as tampered with; adding several changes nothing but for envelopes that name one of
theirs. The current key is never missing. -/
theorem growth_conservative {first ring : Keyring} {additions : List (String × SealerKey)}
    {id : String} {key : SealerKey} (hnew : Keyring.new id key = .ok first)
    (hadded : first.addAll additions = .ok ring) :
    ring.currentId = id ∧ ring.find? id = some key ∧
    (∀ other otherKey, ring.find? other = some otherKey ↔
      (other, otherKey) ∈ (id, key) :: additions) ∧
    ring.keys.map (·.1) = id :: additions.map (·.1) ∧ (ring.keys.map (·.1)).Nodup ∧
    (∀ other ∈ ring.keys.map (·.1), Envelope.FitsHeader other) ∧
    (∀ newId newKey, (∃ error, ring.add newId newKey = .error error) ↔
      ¬Envelope.FitsHeader newId ∨ newId ∈ ring.keys.map (·.1)) ∧
    (∀ newId newKey grown, ring.add newId newKey = .ok grown → ∀ cipher : Aead,
      (∀ clock text,
        grown.unsealPayload cipher clock text = ring.unsealPayload cipher clock text ∨
          ring.unsealPayload cipher clock text = .error .tampered ∧
            Envelope.Names text newId) ∧
      ∀ payload expiry nonce, grown.sealPayload cipher payload expiry nonce =
        ring.sealPayload cipher payload expiry nonce) ∧
    (∀ cipher : Aead, Conservative cipher (additions.map (·.1)) first ring) ∧
    ∀ (cipher : Aead) payload expiry nonce, ring.sealPayload cipher payload expiry nonce ≠
      .error (.encryption "current key missing from keyring") := by
  have hsound := ((Reachable.new hnew).addAll hadded).sound
  have hconservative := conservative_addAll (Reachable.new hnew) hadded
  obtain ⟨-, rfl⟩ := new_eq_ok_iff.mp hnew
  obtain rfl := eq_of_addAll hadded
  refine ⟨rfl, hsound.find?_eq_some_iff.mpr List.mem_cons_self,
    fun other otherKey => hsound.find?_eq_some_iff, rfl, hsound.distinct, ?_,
    fun newId newKey => add_eq_error_iff, ?_, hconservative, sealPayload_ne_missing hsound⟩
  · intro other hother
    exact checkId_eq_ok_iff_fitsHeader.mp (checkId_eq_ok_iff.mpr (hsound.ids_fit other hother))
  · intro newId newKey grown hgrown cipher
    exact ⟨unsealPayload_add hgrown cipher, sealPayload_add hgrown hsound cipher⟩

/-- A ring that seals with the key of one year and unseals with that of the year before: neither can
be replaced, and a third key can be added without a change to what is no envelope of it. -/
theorem growth_conservative_sample :
    ∃ first ring grown, Keyring.new "2026" ⟨List.replicate 32 6, by decide⟩ = .ok first ∧
      first.addAll [("2025", ⟨List.replicate 32 5, by decide⟩)] = .ok ring ∧
      ring.add "2024" ⟨List.replicate 32 4, by decide⟩ = .ok grown ∧
      ring.find? "2026" = some ⟨List.replicate 32 6, by decide⟩ ∧
      ring.find? "2025" = some ⟨List.replicate 32 5, by decide⟩ ∧
      (∀ newId ∈ ["2026", "2025", ""], ∀ newKey, ∃ error, ring.add newId newKey = .error error) ∧
      ∀ clock, grown.unsealPayload Crypto.Gcm.aead clock "!" = .error .malformed := by
  obtain ⟨first, hnew⟩ : ∃ first,
      Keyring.new "2026" ⟨List.replicate 32 6, by decide⟩ = .ok first := ⟨_, rfl⟩
  obtain ⟨ring, hadded⟩ : ∃ ring,
      first.addAll [("2025", ⟨List.replicate 32 5, by decide⟩)] = .ok ring := by
    cases hnew
    exact ⟨_, rfl⟩
  obtain ⟨-, hcurrent, hfind, hids, -, -, hfails, hgrows, -⟩ := growth_conservative hnew hadded
  have hfresh : ∃ grown, ring.add "2024" ⟨List.replicate 32 4, by decide⟩ = .ok grown := by
    cases hnew
    cases hadded
    exact ⟨_, rfl⟩
  obtain ⟨grown, hgrown⟩ := hfresh
  have hmalformed (clock : Instant) :
      ring.unsealPayload Crypto.Gcm.aead clock "!" = .error .malformed := by
    have hparts : (Text.Base64.decodeUrl? "!").bind Envelope.split? = none := by decide
    simp only [unsealPayload, hparts]
  refine ⟨first, ring, grown, hnew, hadded, hgrown, hcurrent, (hfind _ _).mpr (by simp), ?_, ?_⟩
  · intro newId hnewId newKey
    rw [hfails, hids]
    revert newId
    decide
  · intro clock
    obtain ⟨hunseals, -⟩ := hgrows _ _ grown hgrown Crypto.Gcm.aead
    rcases hunseals clock "!" with hsame | ⟨htampered, -⟩
    · exact hsame.trans (hmalformed clock)
    · rw [hmalformed] at htampered
      cases htampered

end Keyring

end OpaqueTokens
