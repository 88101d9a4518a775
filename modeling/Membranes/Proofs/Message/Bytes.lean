import Mathlib.Data.List.Infix
import Membranes.Message.Bytes

/-!
# Reading messages inverts writing them

* `Wire.Inverts` relates a reader to a writer: the reader takes exactly what the writer writes of the
  values that fit, and leaves what follows. There is one such theorem for every reader, from
  `number_inverts` up to `payload_inverts`; `choice_inverts` is the one for choices.
* `Message.decode_eq_ok_iff`: a message is read exactly from its own bytes, with anything behind them.
* `Message.decode_inverts_encode` collects what follows from that.
-/

namespace Membranes

namespace Wire

variable {α β : Type}

/-- A reader takes what is written of a value that fits, and nothing else. -/
structure Inverts (read : Wire α) (write : α → List UInt8) (fits : α → Prop) : Prop where
  eq_ok_iff : ∀ {bytes value rest},
    read bytes = .ok (value, rest) ↔ fits value ∧ bytes = write value ++ rest

variable {read : Wire α} {write : α → List UInt8} {fits : α → Prop}

theorem Inverts.read_append (h : read.Inverts write fits) {value : α} (hfits : fits value)
    (rest : List UInt8) : read (write value ++ rest) = .ok (value, rest) :=
  h.eq_ok_iff.mpr ⟨hfits, rfl⟩

theorem Inverts.bind_eq_ok_iff (h : read.Inverts write fits) {bytes : List UInt8}
    {next : α × List UInt8 → Except WireFault β} {result : β} :
    read bytes >>= next = .ok result ↔
      ∃ value rest, (fits value ∧ bytes = write value ++ rest) ∧ next (value, rest) = .ok result := by
  rw [Membranes.bind_eq_ok_iff, Prod.exists]
  simp only [h.eq_ok_iff]

/-- Two values that fit are the same if one's bytes begin like the other's. -/
theorem Inverts.injective (h : read.Inverts write fits) {a b : α} {rest rest' : List UInt8}
    (ha : fits a) (hb : fits b) (heq : write a ++ rest = write b ++ rest') : a = b ∧ rest = rest' := by
  have hread := h.read_append ha rest
  rw [heq, h.read_append hb rest'] at hread
  obtain ⟨hvalue, hrest⟩ := Prod.mk.inj (Except.ok.inj hread)
  exact ⟨hvalue.symm, hrest.symm⟩

/-- A reader that makes something of what another one reads. -/
theorem Inverts.wrap (h : read.Inverts write fits) {wrap : α → β} {body : β → List UInt8}
    {only : β → Prop} (hbody : ∀ value, fits value → body (wrap value) = write value)
    (honly : ∀ other, only other ↔ ∃ value, fits value ∧ wrap value = other) :
    Wire.Inverts (fun bytes => do
      let (value, rest) ← read bytes
      return (wrap value, rest)) body only where
  eq_ok_iff := by
    intro bytes other rest
    rw [h.bind_eq_ok_iff, honly]
    constructor
    · rintro ⟨value, after, ⟨hfits, rfl⟩, hrest⟩
      obtain ⟨rfl, rfl⟩ := Prod.mk.inj (Except.ok.inj hrest)
      exact ⟨⟨value, hfits, rfl⟩, by rw [hbody value hfits]⟩
    · rintro ⟨⟨value, hfits, rfl⟩, rfl⟩
      exact ⟨value, rest, ⟨hfits, by rw [hbody value hfits]⟩, rfl⟩

/-! ### Numbers -/

theorem number_inverts (count : Nat) :
    (number count).Inverts (littleEndian count) (· < Nat.pow 256 count) where
  eq_ok_iff := by
    intro bytes value rest
    unfold number
    dsimp only
    constructor
    · intro hread
      split at hread
      · rename_i hlength
        obtain ⟨rfl, rfl⟩ := Prod.mk.inj (Except.ok.inj hread)
        have hlt := ofLittleEndian_lt (bytes.take count)
        have hbytes := littleEndian_ofLittleEndian (bytes.take count)
        rw [hlength] at hlt hbytes
        exact ⟨hlt, by rw [hbytes, List.take_append_drop]⟩
      · exact nomatch hread
    · rintro ⟨hfits, rfl⟩
      have hlength := length_littleEndian count value
      rw [List.take_left' hlength, List.drop_left' hlength, if_pos hlength,
        ofLittleEndian_littleEndian count value hfits]

theorem word_inverts : word.Inverts wordBytes fun _ => True := by
  refine (number_inverts 4).wrap (fun n hlt => ?_) fun value => ?_
  · unfold wordBytes
    rw [UInt32.toNat_ofNat_of_lt' hlt]
  · exact ⟨fun _ => ⟨value.toNat, value.toNat_lt, UInt32.ofNat_toNat⟩, fun _ => trivial⟩

theorem longWord_inverts : longWord.Inverts longWordBytes fun _ => True := by
  refine (number_inverts 8).wrap (fun n hlt => ?_) fun value => ?_
  · unfold longWordBytes
    rw [UInt64.toNat_ofNat_of_lt' hlt]
  · exact ⟨fun _ => ⟨value.toNat, value.toNat_lt, UInt64.ofNat_toNat⟩, fun _ => trivial⟩

/-! ### Lists -/

theorem words_inverts (count : Nat) :
    (words count).Inverts (·.flatMap wordBytes) (·.length = count) where
  eq_ok_iff := by
    induction count with
    | zero =>
      intro bytes values rest
      constructor
      · intro hread
        obtain ⟨rfl, rfl⟩ := Prod.mk.inj (Except.ok.inj hread)
        exact ⟨rfl, rfl⟩
      · rintro ⟨hlength, rfl⟩
        obtain rfl := List.length_eq_zero_iff.mp hlength
        rfl
    | succ count ih =>
      have hmore : (words count).Inverts (·.flatMap wordBytes) (·.length = count) := ⟨ih⟩
      intro bytes values rest
      unfold words
      rw [word_inverts.bind_eq_ok_iff]
      constructor
      · rintro ⟨first, after, ⟨-, rfl⟩, hrest⟩
        obtain ⟨more, behind, ⟨hlength, rfl⟩, hend⟩ := hmore.bind_eq_ok_iff.mp hrest
        obtain ⟨rfl, rfl⟩ := Prod.mk.inj (Except.ok.inj hend)
        exact ⟨congrArg (· + 1) hlength, (List.append_assoc ..).symm⟩
      · rintro ⟨hlength, rfl⟩
        cases values with
        | nil => exact nomatch hlength
        | cons first more =>
          refine ⟨first, more.flatMap wordBytes ++ rest, ⟨trivial, List.append_assoc ..⟩, ?_⟩
          exact hmore.bind_eq_ok_iff.mpr ⟨more, rest, ⟨Nat.succ.inj hlength, rfl⟩, rfl⟩

theorem length_flatMap_wordBytes (words : List UInt32) :
    (words.flatMap wordBytes).length = 4 * words.length := by
  induction words with
  | nil => rfl
  | cons word words ih =>
    have hword : (wordBytes word).length = 4 := length_littleEndian 4 word.toNat
    rw [List.flatMap_cons, List.length_append, List.length_cons, ih, hword]
    omega

/-- Words written one after the other can be told apart, for all have one length. -/
theorem flatMap_wordBytes_inj {first second : List UInt32}
    (h : first.flatMap wordBytes = second.flatMap wordBytes) : first = second := by
  have hlength : first.length = second.length := by
    have hbytes := congrArg List.length h
    rw [length_flatMap_wordBytes, length_flatMap_wordBytes] at hbytes
    omega
  have happend : first.flatMap wordBytes ++ [] = second.flatMap wordBytes ++ [] := by rw [h]
  exact ((words_inverts second.length).injective hlength rfl happend).1

/-- The members of a list are counted in eight bytes. -/
theorem wordList_inverts : wordList.Inverts wordListBytes (·.length < UInt64.size) where
  eq_ok_iff := by
    intro bytes values rest
    unfold wordList wordListBytes
    rw [(number_inverts 8).bind_eq_ok_iff]
    constructor
    · rintro ⟨count, after, ⟨hlt, rfl⟩, hrest⟩
      obtain ⟨rfl, rfl⟩ := (words_inverts count).eq_ok_iff.mp hrest
      exact ⟨hlt, (List.append_assoc ..).symm⟩
    · rintro ⟨hfits, rfl⟩
      refine ⟨values.length, _, ⟨hfits, List.append_assoc ..⟩, ?_⟩
      exact (words_inverts values.length).read_append rfl rest

theorem shape_inverts : shape.Inverts (wordListBytes ·.axes) fun _ => True where
  eq_ok_iff := by
    intro bytes value rest
    unfold shape
    rw [wordList_inverts.bind_eq_ok_iff]
    constructor
    · rintro ⟨axes, after, ⟨-, rfl⟩, hrest⟩
      dsimp only at hrest
      split at hrest
      · rename_i hread
        obtain ⟨rfl, rfl⟩ := Prod.mk.inj (Except.ok.inj hrest)
        rw [Shape.ofAxes_eq_ok_iff.mp hread]
        exact ⟨trivial, rfl⟩
      · exact nomatch hrest
    · rintro ⟨-, rfl⟩
      have hrank : value.axes.length < UInt64.size := Nat.lt_trans value.rank_lt (by decide)
      refine ⟨value.axes, rest, ⟨hrank, rfl⟩, ?_⟩
      dsimp only
      rw [Shape.ofAxes_eq_ok_iff.mpr rfl]

/-! ### Choices -/

theorem choice_eq_ok_iff {branches : List (Wire α)} {bytes rest : List UInt8} {value : α} :
    choice branches bytes = .ok (value, rest) ↔
      ∃ (index : UInt32) (branch : Wire α) (after : List UInt8), branches[index.toNat]? = some branch ∧
        bytes = wordBytes index ++ after ∧ branch after = .ok (value, rest) := by
  unfold choice
  rw [word_inverts.bind_eq_ok_iff]
  constructor
  · rintro ⟨index, after, ⟨-, rfl⟩, hrest⟩
    dsimp only at hrest
    split at hrest
    · rename_i branch hbranch
      exact ⟨index, branch, after, hbranch, rfl, hrest⟩
    · exact nomatch hrest
  · rintro ⟨index, branch, after, hbranch, rfl, hrest⟩
    refine ⟨index, after, ⟨trivial, rfl⟩, ?_⟩
    dsimp only
    rw [hbranch]
    exact hrest

/-- A choice inverts a writer that puts the number of the possibility in front, if every branch inverts
it on the values of its own possibility. -/
theorem choice_inverts {branches : List (Wire α)} {tag : α → ℕ} {body : α → List UInt8}
    (hcount : branches.length ≤ UInt32.size) (hlt : ∀ value, tag value < branches.length)
    (hbranches : ∀ (index : ℕ) (branch : Wire α), branches[index]? = some branch →
      branch.Inverts body fun value => tag value = index ∧ fits value) :
    (choice branches).Inverts (fun value => littleEndian 4 (tag value) ++ body value) fits where
  eq_ok_iff := by
    intro bytes value rest
    rw [choice_eq_ok_iff]
    constructor
    · rintro ⟨index, branch, after, hbranch, rfl, hrest⟩
      obtain ⟨⟨htag, hfits⟩, rfl⟩ := (hbranches _ branch hbranch).eq_ok_iff.mp hrest
      rw [htag]
      exact ⟨hfits, (List.append_assoc ..).symm⟩
    · rintro ⟨hfits, rfl⟩
      have hword : (UInt32.ofNat (tag value)).toNat = tag value :=
        UInt32.toNat_ofNat_of_lt' (Nat.lt_of_lt_of_le (hlt value) hcount)
      obtain ⟨branch, hbranch⟩ : ∃ branch, branches[tag value]? = some branch :=
        ⟨_, List.getElem?_eq_getElem (hlt value)⟩
      refine ⟨UInt32.ofNat (tag value), branch, body value ++ rest, ?_, ?_, ?_⟩
      · rw [hword, hbranch]
      · unfold wordBytes
        rw [hword, List.append_assoc]
      · exact (hbranches _ _ hbranch).read_append ⟨rfl, hfits⟩ rest

theorem always_inverts {value : α} {body : α → List UInt8} (hbody : body value = [])
    {only : α → Prop} (honly : ∀ other, only other ↔ other = value) :
    (always value).Inverts body only where
  eq_ok_iff := by
    intro bytes other rest
    rw [honly]
    constructor
    · intro hread
      obtain ⟨rfl, rfl⟩ := Prod.mk.inj (Except.ok.inj hread)
      exact ⟨rfl, by rw [hbody, List.nil_append]⟩
    · rintro ⟨rfl, rfl⟩
      rw [hbody]
      rfl

end Wire

/-! ### Snapshots -/

/-- The elements can be counted in the eight bytes in front of them, as in every buffer that a memory of
64-bit addresses holds. -/
def Snapshot.Countable (snapshot : Snapshot) : Prop := snapshot.buffer.size < UInt64.size

theorem Wire.snapshot_inverts : Wire.snapshot.Inverts Snapshot.encode Snapshot.Countable where
  eq_ok_iff := by
    intro bytes value rest
    unfold Wire.snapshot Snapshot.encode Snapshot.Countable
    simp only [word_inverts.bind_eq_ok_iff, shape_inverts.bind_eq_ok_iff,
      longWord_inverts.bind_eq_ok_iff, wordList_inverts.bind_eq_ok_iff]
    constructor
    · rintro ⟨id, _, ⟨-, rfl⟩, shape, _, ⟨-, rfl⟩, version, _, ⟨-, rfl⟩, checksum, _, ⟨-, rfl⟩,
        elements, after, ⟨hcount, rfl⟩, hrest⟩
      obtain ⟨rfl, rfl⟩ := Prod.mk.inj (Except.ok.inj hrest)
      refine ⟨?_, ?_⟩
      · simpa using hcount
      · simp [List.map_map, Function.comp_def]
    · rintro ⟨hcount, rfl⟩
      refine ⟨value.id.value, _, ⟨trivial, ?_⟩, value.shape, _, ⟨trivial, rfl⟩, value.version, _,
        ⟨trivial, rfl⟩, value.checksum, _, ⟨trivial, rfl⟩, value.buffer.toList.map (·.bits), rest,
        ⟨?_, rfl⟩, ?_⟩
      · simp only [List.append_assoc]
      · simpa using hcount
      · show Except.ok ({ value with buffer := _ }, rest) = _
        simp [List.map_map, Function.comp_def]

/-! ### Acknowledgments -/

theorem Resolution.mem_all (resolution : Resolution) : resolution ∈ Resolution.all := by
  cases resolution <;> decide

theorem Resolution.nodup_all : Resolution.all.Nodup := by decide

theorem Wire.resolution_inverts : Wire.resolution.Inverts Resolution.encode fun _ => True := by
  have hbody : Resolution.encode =
      fun resolution => littleEndian 4 (Resolution.all.idxOf resolution) ++ [] := by
    funext resolution
    exact (List.append_nil _).symm
  rw [hbody]
  refine choice_inverts (by decide) ?_ ?_
  · intro resolution
    rw [List.length_map]
    exact List.idxOf_lt_length_of_mem resolution.mem_all
  · intro index branch hbranch
    rw [List.getElem?_map, Option.map_eq_some_iff] at hbranch
    obtain ⟨resolution, hindex, rfl⟩ := hbranch
    refine always_inverts rfl fun other => ?_
    rw [and_true]
    constructor
    · rintro rfl
      exact Option.some.inj ((List.getElem?_idxOf other.mem_all).symm.trans hindex)
    · rintro rfl
      obtain ⟨hlt, rfl⟩ := List.getElem?_eq_some_iff.mp hindex
      exact Resolution.nodup_all.idxOf_getElem index hlt

namespace Decision

/-- The number of a decision among the possibilities. -/
def tag : Decision → ℕ
  | .accept => 0
  | .reject => 1
  | .conflict _ => 2

/-- The bytes behind the number of a decision. -/
def body : Decision → List UInt8
  | .accept | .reject => []
  | .conflict resolution => resolution.encode

theorem encode_eq (decision : Decision) :
    decision.encode = littleEndian 4 decision.tag ++ decision.body := by
  cases decision <;> rfl

end Decision

theorem Wire.decision_inverts : Wire.decision.Inverts Decision.encode fun _ => True := by
  rw [funext Decision.encode_eq]
  refine choice_inverts (by decide) ?_ ?_
  · intro decision
    cases decision <;> simp [Decision.tag]
  · intro index branch hbranch
    match index with
    | 0 =>
      obtain rfl := Option.some.inj hbranch
      refine always_inverts rfl fun other => ?_
      cases other <;> simp [Decision.tag]
    | 1 =>
      obtain rfl := Option.some.inj hbranch
      refine always_inverts rfl fun other => ?_
      cases other <;> simp [Decision.tag]
    | 2 =>
      obtain rfl := Option.some.inj hbranch
      refine resolution_inverts.wrap (fun resolution _ => rfl) fun other => ?_
      cases other <;> simp [Decision.tag]
    | _ + 3 => exact nomatch hbranch

theorem Wire.acknowledgment_inverts :
    Wire.acknowledgment.Inverts Acknowledgment.encode fun _ => True where
  eq_ok_iff := by
    intro bytes value rest
    unfold Wire.acknowledgment Acknowledgment.encode
    simp only [word_inverts.bind_eq_ok_iff, longWord_inverts.bind_eq_ok_iff,
      decision_inverts.bind_eq_ok_iff]
    constructor
    · rintro ⟨id, _, ⟨-, rfl⟩, version, _, ⟨-, rfl⟩, checksum, _, ⟨-, rfl⟩, decision, after, ⟨-, rfl⟩,
        hrest⟩
      obtain ⟨rfl, rfl⟩ := Prod.mk.inj (Except.ok.inj hrest)
      simp only [List.append_assoc, and_self]
    · rintro ⟨-, rfl⟩
      refine ⟨value.id.value, _, ⟨trivial, ?_⟩, value.version, _, ⟨trivial, rfl⟩, value.checksum, _,
        ⟨trivial, rfl⟩, value.decision, rest, ⟨trivial, rfl⟩, rfl⟩
      simp only [List.append_assoc]

/-! ### Payloads and messages -/

namespace Payload

/-- The elements of a snapshot can be counted. -/
def Countable : Payload → Prop
  | .snapshot content => content.Countable
  | .acknowledgment _ => True

/-- The number of a payload among the possibilities. -/
def tag : Payload → ℕ
  | .snapshot _ => 0
  | .acknowledgment _ => 1

/-- The bytes behind the number of a payload. -/
def body : Payload → List UInt8
  | .snapshot content => content.encode
  | .acknowledgment ack => ack.encode

theorem encode_eq (payload : Payload) :
    payload.encode = littleEndian 4 payload.tag ++ payload.body := by
  cases payload <;> rfl

end Payload

theorem Wire.payload_inverts : Wire.payload.Inverts Payload.encode Payload.Countable := by
  rw [funext Payload.encode_eq]
  refine choice_inverts (by decide) ?_ ?_
  · intro payload
    cases payload <;> simp [Payload.tag]
  · intro index branch hbranch
    match index with
    | 0 =>
      obtain rfl := Option.some.inj hbranch
      refine snapshot_inverts.wrap (fun content _ => rfl) fun other => ?_
      cases other <;> simp [Payload.tag, Payload.Countable]
    | 1 =>
      obtain rfl := Option.some.inj hbranch
      refine acknowledgment_inverts.wrap (fun ack _ => rfl) fun other => ?_
      cases other <;> simp [Payload.tag, Payload.Countable]
    | _ + 2 => exact nomatch hbranch

namespace Message

/-- The elements of a snapshot can be counted. -/
def Countable (message : Message) : Prop := message.payload.Countable

variable {bytes : List UInt8} {message a b : Message}

/-- A message of another schema is refused, whatever follows. -/
theorem decode_of_schema_ne {schema : UInt16} (h : schema ≠ schemaVersion) (rest : List UInt8) :
    decode (littleEndian 2 schema.toNat ++ rest) = .error (.unknownSchema schema) := by
  unfold decode
  rw [(Wire.number_inverts 2).read_append schema.toNat_lt]
  dsimp only
  rw [UInt16.ofNat_toNat, if_pos h]

/-- **A message is read from its own bytes, and from nothing else,** whatever stands behind them. -/
theorem decode_eq_ok_iff :
    decode bytes = .ok message ↔
      message.schema = schemaVersion ∧ message.Countable ∧ ∃ tail, bytes = message.encode ++ tail := by
  constructor
  · intro hdecode
    unfold decode at hdecode
    split at hdecode
    · exact nomatch hdecode
    · rename_i found after hnumber
      obtain ⟨hlt, rfl⟩ := (Wire.number_inverts 2).eq_ok_iff.mp hnumber
      dsimp only at hdecode
      split at hdecode
      · exact nomatch hdecode
      · rename_i hschema
        obtain ⟨payload, tail, ⟨hcount, rfl⟩, hend⟩ := Wire.payload_inverts.bind_eq_ok_iff.mp hdecode
        obtain rfl := Except.ok.inj hend
        refine ⟨not_ne_iff.mp hschema, hcount, tail, ?_⟩
        unfold encode
        rw [UInt16.toNat_ofNat_of_lt' hlt, List.append_assoc]
  · rintro ⟨hschema, hcount, tail, rfl⟩
    unfold decode encode
    rw [List.append_assoc, (Wire.number_inverts 2).read_append message.schema.toNat_lt]
    dsimp only
    rw [UInt16.ofNat_toNat, if_neg (not_ne_iff.mpr hschema)]
    exact Wire.payload_inverts.bind_eq_ok_iff.mpr ⟨message.payload, tail, ⟨hcount, rfl⟩, rfl⟩

theorem decode_encode (hschema : message.schema = schemaVersion) (hcount : message.Countable) :
    decode message.encode = .ok message :=
  decode_eq_ok_iff.mpr ⟨hschema, hcount, [], (List.append_nil _).symm⟩

/-- Messages whose bytes begin alike are the same. -/
theorem encode_append_inj (ha : a.Countable) (hb : b.Countable) {tail tail' : List UInt8}
    (heq : a.encode ++ tail = b.encode ++ tail') : a = b ∧ tail = tail' := by
  unfold encode at heq
  rw [List.append_assoc, List.append_assoc] at heq
  obtain ⟨hschema, hrest⟩ := (Wire.number_inverts 2).injective a.schema.toNat_lt b.schema.toNat_lt heq
  obtain ⟨hpayload, htail⟩ := Wire.payload_inverts.injective ha hb hrest
  refine ⟨?_, htail⟩
  cases a
  cases b
  rw [Message.mk.injEq]
  exact ⟨UInt16.toNat_inj.mp hschema, hpayload⟩

/-- A message that is cut off is refused. -/
theorem decode_of_cut (hcount : message.Countable) (hbegins : bytes <+: message.encode)
    (hne : bytes ≠ message.encode) : ∃ fault, decode bytes = .error fault := by
  cases hdecode : decode bytes with
  | error fault => exact ⟨fault, rfl⟩
  | ok other =>
    -- What was read would begin like the whole message, so it would be the whole message.
    obtain ⟨-, hother, tail, rfl⟩ := decode_eq_ok_iff.mp hdecode
    obtain ⟨cut, hcut⟩ := hbegins
    have heq : other.encode ++ (tail ++ cut) = message.encode ++ [] := by
      rw [← List.append_assoc, hcut, List.append_nil]
    obtain ⟨rfl, hnil⟩ := encode_append_inj hother hcount heq
    obtain ⟨rfl, rfl⟩ := List.append_eq_nil_iff.mp hnil
    exact absurd (List.append_nil _) hne

theorem length_wordListBytes (words : List UInt32) :
    (wordListBytes words).length = 8 + 4 * words.length := by
  unfold wordListBytes
  rw [List.length_append, length_littleEndian, Wire.length_flatMap_wordBytes]

/-- What fits the memory can be counted. -/
theorem countable_of_length_lt (h : message.encode.length < UInt64.size) : message.Countable := by
  obtain ⟨schema, payload⟩ := message
  cases payload with
  | acknowledgment ack => trivial
  | snapshot content =>
    have helements := length_wordListBytes (content.buffer.toList.map (·.bits))
    have hsize : content.buffer.toList.length = content.buffer.size := Array.length_toList
    rw [List.length_map, hsize] at helements
    show content.buffer.size < UInt64.size
    unfold encode Payload.encode Snapshot.encode at h
    simp only [List.length_append] at h
    omega

/-- **Decoding inverts encoding.** The messages that are read are those of the schema version, each from
its own bytes with anything behind them; so no two messages share their bytes, a message that is cut off
is refused, and so is every message of another schema. -/
theorem decode_inverts_encode :
    (∀ bytes message, decode bytes = .ok message ↔
      message.schema = schemaVersion ∧ message.Countable ∧ ∃ tail, bytes = message.encode ++ tail) ∧
    (∀ message : Message, message.encode.length < UInt64.size → message.Countable) ∧
    (∀ message : Message, message.schema = schemaVersion → message.Countable →
      decode message.encode = .ok message) ∧
    (∀ a b : Message, a.Countable → b.Countable → a.encode = b.encode → a = b) ∧
    (∀ (message : Message) bytes, message.Countable → bytes <+: message.encode →
      bytes ≠ message.encode → ∃ fault, decode bytes = .error fault) ∧
    (∀ (schema : UInt16) rest, schema ≠ schemaVersion →
      decode (littleEndian 2 schema.toNat ++ rest) = .error (.unknownSchema schema)) := by
  refine ⟨fun bytes message => decode_eq_ok_iff, fun message => countable_of_length_lt,
    fun message => decode_encode, ?_, fun message bytes => decode_of_cut,
    fun schema rest hne => decode_of_schema_ne hne rest⟩
  intro a b ha hb heq
  have hnil : a.encode ++ [] = b.encode ++ [] := by rw [heq]
  exact (encode_append_inj ha hb hnil).1

/-- A message with a snapshot that no membrane has: one element, not a number, without an axis and under
the checksum of something else. -/
def damaged : Message := .ofSnapshot ⟨⟨7⟩, .scalar, 9, 0xBAD, #[⟨0x7FC00001⟩]⟩

/-- Damage travels as it is. -/
theorem decode_inverts_encode_damaged :
    damaged.Countable ∧
      decode (damaged.encode ++ [42]) = .ok damaged ∧ decode damaged.encode = .ok damaged ∧
      (∃ fault, decode (damaged.encode.take 20) = .error fault) ∧
      decode ([2, 0] ++ damaged.encode) = .error (.unknownSchema 2) := by
  obtain ⟨hiff, hmemory, hself, -, hcut, hschema⟩ := decode_inverts_encode
  have hcount : damaged.Countable := hmemory damaged (by decide)
  have hbegins : damaged.encode.take 20 <+: damaged.encode := List.take_prefix 20 damaged.encode
  refine ⟨hcount, (hiff _ _).mpr ⟨rfl, hcount, [42], rfl⟩, hself damaged rfl hcount, ?_, ?_⟩
  · exact hcut damaged _ hcount hbegins (by decide)
  · exact hschema 2 damaged.encode (by decide)

end Message

end Membranes
