import Membranes.Proofs.Message.Bytes
import Membranes.Proofs.Snapshot.Merge

/-!
# What checksums tell apart

* `contentBytes_toList`: the bytes that are hashed are the axis sizes and then the elements, with nothing
  in between.
* `axes_eq_of_append_eq`: an element cannot be read as a further axis, for one more axis doubles the number
  of elements at least. So the bytes tell contents apart (`contentBytes_inj`).
* `content_unambiguous`: whole snapshots with one checksum and different contents are a collision of the
  hash cut off behind four bytes. Such pairs exist: `twin` and `otherTwin` are one.
-/

namespace Membranes

/-! ### The bytes that are hashed -/

/-- The bytes of a word are what its shifts leave at the low end. -/
theorem wordBytes_eq (word : UInt32) :
    wordBytes word = [word.toUInt8, (word >>> 8).toUInt8, (word >>> 16).toUInt8,
      (word >>> 24).toUInt8] := by
  unfold wordBytes
  simp only [littleEndian, List.cons.injEq, and_true]
  refine ⟨?_, ?_, ?_, ?_⟩ <;>
    · apply UInt8.toNat_inj.mp
      simp [Nat.shiftRight_eq_div_pow, Nat.div_div_eq_div_mul]

theorem pushWord_toList (data : ByteArray) (word : UInt32) :
    (pushWord data word).data.toList = data.data.toList ++ wordBytes word := by
  rw [wordBytes_eq]
  unfold pushWord
  simp only [ByteArray.data_push, Array.toList_push, List.append_assoc, List.cons_append,
    List.nil_append]

theorem foldl_pushWord_toList {α : Type} (f : α → UInt32) (items : List α) (data : ByteArray) :
    (items.foldl (fun data x => pushWord data (f x)) data).data.toList =
      data.data.toList ++ items.flatMap fun x => wordBytes (f x) := by
  induction items generalizing data with
  | nil => exact (List.append_nil _).symm
  | cons x items ih =>
    rw [List.foldl_cons, ih, pushWord_toList, List.append_assoc, List.flatMap_cons]

theorem contentBytes_toList (shape : Shape) (buffer : Array Binary32) :
    (contentBytes shape buffer).data.toList =
      shape.bytes ++ buffer.toList.flatMap fun x => wordBytes x.bits := by
  unfold contentBytes
  rw [← Array.foldl_toList, foldl_pushWord_toList, foldl_pushWord_toList]
  rfl

/-! ### Sizes and elements -/

namespace Shape

/-- Further axes would need more elements than there are: each doubles the number of them at least. -/
theorem eq_nil_of_axes_append {shape longer : Shape} {further : List UInt32}
    (haxes : longer.axes = shape.axes ++ further)
    (hcount : shape.volume.toNat = further.length + longer.volume.toNat) : further = [] := by
  have hthick : ∀ a ∈ further, 2 ≤ a.toNat := by
    intro a ha
    exact longer.valid.1 a (haxes ▸ List.mem_append_right _ ha)
  have hpower : Nat.pow 2 further.length ≤ axesProduct further :=
    two_pow_length_le_axesProduct hthick
  have hpos : 0 < axesProduct shape.axes := axesProduct_pos shape.valid.1
  rw [toNat_volume, toNat_volume, haxes, axesProduct_append] at hcount
  have hgrows : axesProduct shape.axes ≤ axesProduct shape.axes * axesProduct further :=
    Nat.le_mul_of_pos_right _ (axesProduct_pos hthick)
  exact List.length_eq_zero_iff.mp (by omega)

/-- Sizes followed by as many words as they multiply to can be told apart from the words. -/
theorem axes_eq_of_append_eq {shape shape' : Shape} {words words' : List UInt32}
    (hlength : words.length = shape.volume.toNat) (hlength' : words'.length = shape'.volume.toNat)
    (h : shape.axes ++ words = shape'.axes ++ words') : shape.axes = shape'.axes := by
  rcases List.append_eq_append_iff.mp h with ⟨further, haxes, hwords⟩ | ⟨further, haxes, hwords⟩
  · have hcount : shape.volume.toNat = further.length + shape'.volume.toNat := by
      rw [← hlength, ← hlength', hwords, List.length_append]
    rw [haxes, eq_nil_of_axes_append haxes hcount, List.append_nil]
  · have hcount : shape'.volume.toNat = further.length + shape.volume.toNat := by
      rw [← hlength, ← hlength', hwords, List.length_append]
    rw [haxes, eq_nil_of_axes_append haxes hcount, List.append_nil]

end Shape

variable {shape shape' : Shape} {buffer buffer' : Array Binary32}

/-- The words of a content: the sizes, then the bits of the elements. -/
theorem contentBytes_toList_eq_flatMap (shape : Shape) (buffer : Array Binary32) :
    (contentBytes shape buffer).data.toList =
      (shape.axes ++ buffer.toList.map (·.bits)).flatMap wordBytes := by
  rw [contentBytes_toList, List.flatMap_append, List.flatMap_map]
  rfl

/-- **The bytes that are hashed tell contents apart**, whatever the number of axes. -/
theorem contentBytes_inj (hsize : buffer.size = shape.volume.toNat)
    (hsize' : buffer'.size = shape'.volume.toNat)
    (h : contentBytes shape buffer = contentBytes shape' buffer') :
    shape = shape' ∧ buffer = buffer' := by
  have hbytes : (contentBytes shape buffer).data.toList = (contentBytes shape' buffer').data.toList := by
    rw [h]
  rw [contentBytes_toList_eq_flatMap, contentBytes_toList_eq_flatMap] at hbytes
  have hwords := Wire.flatMap_wordBytes_inj hbytes
  have haxes : shape.axes = shape'.axes := by
    refine Shape.axes_eq_of_append_eq ?_ ?_ hwords
    · rw [List.length_map, Array.length_toList, hsize]
    · rw [List.length_map, Array.length_toList, hsize']
  rw [haxes] at hwords
  have hbits := List.append_cancel_left hwords
  refine ⟨Shape.eq_of_axes_eq haxes, ?_⟩
  have hinj : Function.Injective Binary32.bits := fun x y heq => by
    cases x
    cases y
    exact congrArg Binary32.mk heq
  exact Array.toList_inj.mp (List.map_injective_iff.mpr hinj hbits)

/-- Without the number of elements, the first of them could as well be a further axis. -/
example : contentBytes Snapshot.pairShape #[⟨3⟩, ⟨7⟩] =
    contentBytes ⟨[2, 3], by simp, by decide⟩ #[⟨7⟩] := by rfl

/-! ### The digest that is cut off -/

/-- The checksum of a content is the hash of its bytes, cut off behind the first four. -/
theorem take_hash_contentBytes (shape : Shape) (buffer : Array Binary32) :
    (Blake3.hash (contentBytes shape buffer)).take 4 = wordBytes (checksumOf shape buffer) := by
  rfl

/-- **Contents are hashed unambiguously.** What is hashed are the sizes and then the elements; equal bytes
come from equal contents, as long as there are as many elements as the sizes multiply to. So when two
whole snapshots have one checksum and different contents, their bytes differ and the hashes of these,
cut off behind four bytes, do not. -/
theorem content_unambiguous :
    (∀ shape buffer, (contentBytes shape buffer).data.toList =
      shape.bytes ++ buffer.toList.flatMap fun x => wordBytes x.bits) ∧
    (∀ shape shape' buffer buffer', buffer.size = shape.volume.toNat →
      buffer'.size = shape'.volume.toNat →
      (contentBytes shape buffer = contentBytes shape' buffer' ↔ shape = shape' ∧ buffer = buffer')) ∧
    (∀ a b : Snapshot, a.verify = .ok () → b.verify = .ok () → a.checksum = b.checksum →
      ¬ (a.shape = b.shape ∧ a.buffer = b.buffer) →
      contentBytes a.shape a.buffer ≠ contentBytes b.shape b.buffer ∧
        (Blake3.hash (contentBytes a.shape a.buffer)).take 4 =
          (Blake3.hash (contentBytes b.shape b.buffer)).take 4) := by
  refine ⟨contentBytes_toList, ?_, ?_⟩
  · intro shape shape' buffer buffer' hsize hsize'
    constructor
    · exact contentBytes_inj hsize hsize'
    · rintro ⟨rfl, rfl⟩
      rfl
  · intro a b ha hb hchecksum hdiffer
    obtain ⟨-, hsize, hstated⟩ := Snapshot.verify_eq_ok_iff.mp ha
    obtain ⟨-, hsize', hstated'⟩ := Snapshot.verify_eq_ok_iff.mp hb
    constructor
    · exact fun h => hdiffer (contentBytes_inj hsize hsize' h)
    · rw [take_hash_contentBytes, take_hash_contentBytes, ← hstated, ← hstated', hchecksum]

/-- Two elements of 13422. -/
def twin : Snapshot := .ofPair 1 2 0x4651B800

/-- Two elements of 86157, which have the same checksum. -/
def otherTwin : Snapshot := .ofPair 1 2 0x47A84680

/-- The twins are whole and have one checksum; their bytes differ, and collide behind the hash. -/
theorem content_unambiguous_collision :
    twin.verify = .ok () ∧ otherTwin.verify = .ok () ∧ twin.checksum = otherTwin.checksum ∧
      contentBytes twin.shape twin.buffer ≠ contentBytes otherTwin.shape otherTwin.buffer ∧
      (Blake3.hash (contentBytes twin.shape twin.buffer)).take 4 =
        (Blake3.hash (contentBytes otherTwin.shape otherTwin.buffer)).take 4 ∧
      (contentBytes twin.shape twin.buffer = contentBytes otherTwin.shape otherTwin.buffer ↔
        twin.shape = otherTwin.shape ∧ twin.buffer = otherTwin.buffer) := by
  have htwin : twin.verify = .ok () := Snapshot.verify_ofPair 1 2 0x4651B800
  have hother : otherTwin.verify = .ok () := Snapshot.verify_ofPair 1 2 0x47A84680
  have hchecksum : twin.checksum = otherTwin.checksum := by decide +kernel
  have hdiffer : ¬ (twin.shape = otherTwin.shape ∧ twin.buffer = otherTwin.buffer) := by decide
  obtain ⟨-, hinj, hcollide⟩ := content_unambiguous
  obtain ⟨hbytes, hhash⟩ := hcollide twin otherTwin htwin hother hchecksum hdiffer
  exact ⟨htwin, hother, hchecksum, hbytes, hhash, hinj _ _ _ _ rfl rfl⟩

end Membranes
