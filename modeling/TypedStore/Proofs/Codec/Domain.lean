/-
  TypedStore/Proofs/Codec/Domain.lean
  ===================================
  **What can be stored is what can be read.**

  The domain of the store bounds the depth of a value, which is measured from its leaves up; decoding
  bounds how many arrays and objects stand around a node, which is counted from the root down. With the
  nodes around it a decoded value stays within the one bound as the other says (`domain_induction`), and
  a value in the domain is decoded from its own node. So no value can be stored that cannot be read, nor
  can one be read that cannot be stored.
-/
import TypedStore.Proofs.Codec.Decoding

namespace TypedStore.Value

open Json (IsScalar)

variable {kind : Kind} {payload : Json} {v : Value}

theorem domain_of_scalar (hscalar : v.kind.isComposite = false)
    (hpayload : IsScalar v.kind v.encodePayload) : v.depth = 0 ∧ v.nonFinite? = none := by
  cases v with
  | arr items => cases hscalar
  | obj members => cases hscalar
  | f64 x =>
    refine ⟨rfl, ?_⟩
    have hfinite : x.isFinite := by
      by_contra hnot
      rw [encodePayload_f64, Json.ofFloat, dif_neg hnot] at hpayload
      cases hpayload
    simp [nonFinite?, hfinite]
  | _ => exact ⟨rfl, rfl⟩

theorem domain_of_ofPayload (h : ofPayload kind payload = .ok v) :
    v.depth = 0 ∧ v.nonFinite? = none := by
  obtain ⟨hscalar, hkind, hpayload⟩ := isScalar_of_ofPayload h
  apply domain_of_scalar
  · rw [hkind]
    exact isComposite_of_ofPayload h
  · rw [hkind, hpayload]
    exact hscalar.tidy

theorem domain_of_items {enclosing : Nat} {items : List Json} {values : List Value}
    (hdepth : enclosing ≤ maxDepth)
    (h : List.Forall₂ (fun _ value => enclosing + depth value ≤ maxDepth ∧
      nonFinite? value = none) items values) :
    enclosing + depthItems values ≤ maxDepth ∧ nonFiniteItem? values = none := by
  induction h with
  | nil => exact ⟨hdepth, rfl⟩
  | cons hhead _ ih =>
    obtain ⟨hle, hfinite⟩ := hhead
    obtain ⟨hrest, hmore⟩ := ih
    refine ⟨?_, ?_⟩
    · rw [depthItems, ← Nat.add_max_add_left]
      exact max_le hle hrest
    · rw [nonFiniteItem?, hfinite, hmore]
      rfl

theorem domain_of_members {enclosing : Nat} {fields : List (String × Json)}
    {values : List (String × Value)} (hdepth : enclosing ≤ maxDepth)
    (h : List.Forall₂ (fun (_ : String × Json) (value : String × Value) =>
      enclosing + depth value.2 ≤ maxDepth ∧ nonFinite? value.2 = none) fields values) :
    enclosing + depthMembers values ≤ maxDepth ∧ nonFiniteMember? values = none := by
  induction h with
  | nil => exact ⟨hdepth, rfl⟩
  | cons hhead _ ih =>
    obtain ⟨hle, hfinite⟩ := hhead
    obtain ⟨hrest, hmore⟩ := ih
    refine ⟨?_, ?_⟩
    · rw [depthMembers, ← Nat.add_max_add_left]
      exact max_le hle hrest
    · rw [nonFiniteMember?, hfinite, hmore]
      rfl

/-- A value that is decoded within so many arrays and objects is nested no deeper than is left. -/
theorem domain_induction : NodeInduction fun enclosing _ v => enclosing ≤ maxDepth →
    enclosing + v.depth ≤ maxDepth ∧ v.nonFinite? = none := by
  constructor
  · intro enclosing members kind payload v _ _ hmade hle
    obtain ⟨hdepth, hfinite⟩ := domain_of_ofPayload hmade
    refine ⟨?_, hfinite⟩
    rw [hdepth]
    exact hle
  · intro enclosing members items values _ hlt hitems _
    obtain ⟨hdepth, hfinite⟩ := domain_of_items hlt (hitems.imp fun _ _ h => h hlt)
    refine ⟨?_, hfinite⟩
    rw [depth, ← Nat.add_assoc]
    exact hdepth
  · intro enclosing members fields values _ hlt hfields _
    obtain ⟨hdepth, hfinite⟩ := domain_of_members hlt (hfields.imp fun _ _ h => h.2 hlt)
    refine ⟨?_, hfinite⟩
    rw [depth, ← Nat.add_assoc]
    exact hdepth

theorem checkDomain_of_decode {tree : Json} (h : decode tree = .ok v) : v.checkDomain = .ok () := by
  obtain ⟨hdepth, hfinite⟩ := domain_induction.of_decodeAt tree [] v h (Nat.zero_le _)
  rw [List.length_nil, Nat.zero_add] at hdepth
  exact checkDomain_eq_ok_iff.2 ⟨hdepth, hfinite⟩

theorem exists_decode_of_decodeText {text : String} (h : decodeText text = .ok v) :
    ∃ tree, decode tree = .ok v := by
  unfold decodeText at h
  split at h
  · next tree _ => exact ⟨tree, h⟩
  · cases h

theorem exists_decode_of_decodeBytes {bytes : Bytes} (h : decodeBytes bytes = .ok v) :
    ∃ tree, decode tree = .ok v := by
  unfold decodeBytes at h
  split at h
  · next tree _ => exact ⟨tree, h⟩
  · cases h

/-- A value is in the domain of the store exactly if some tree is decoded to it, one without repeated
    names if the value has none. So whatever is decoded, from a tree, a text or bytes, can be stored
    again. -/
theorem checkDomain_iff_decoded (v : Value) :
    (v.checkDomain = .ok () ↔
      ∃ tree : Json, (v.Distinct → tree.Distinct) ∧ decode tree = .ok v) ∧
    (∀ tree, decode tree = .ok v → v.checkDomain = .ok ()) ∧
    (∀ text, decodeText text = .ok v → v.checkDomain = .ok ()) ∧
    ∀ bytes, decodeBytes bytes = .ok v → v.checkDomain = .ok () := by
  refine ⟨⟨?_, ?_⟩, fun _ h => checkDomain_of_decode h, ?_, ?_⟩
  · intro h
    exact ⟨v.encode, distinct_encode, decode_encode_of_checkDomain h⟩
  · rintro ⟨tree, -, h⟩
    exact checkDomain_of_decode h
  · intro text h
    obtain ⟨tree, htree⟩ := exists_decode_of_decodeText h
    exact checkDomain_of_decode htree
  · intro bytes h
    obtain ⟨tree, htree⟩ := exists_decode_of_decodeBytes h
    exact checkDomain_of_decode htree

/-- Thirty-two arrays within each other are read from a text, and thirty-three from no tree. -/
theorem checkDomain_iff_decoded_nested :
    let nested (depth : Nat) : Value := Nat.repeat (fun v => .arr [v]) depth .null
    ((nested 32).checkDomain = .ok () ∧ ∃ tree : Json, decode tree = .ok (nested 32)) ∧
      ¬ ∃ tree : Json, ((nested 33).Distinct → tree.Distinct) ∧ decode tree = .ok (nested 33) := by
  intro nested
  have hdomain : (nested 32).checkDomain = .ok () := by decide +kernel
  have hdeep : (nested 33).checkDomain ≠ .ok () := by decide +kernel
  refine ⟨⟨hdomain, ?_⟩, ?_⟩
  · obtain ⟨tree, -, htree⟩ := (checkDomain_iff_decoded (nested 32)).1.1 hdomain
    exact ⟨tree, htree⟩
  · intro h
    exact hdeep ((checkDomain_iff_decoded (nested 33)).1.2 h)

end TypedStore.Value
