import Mathlib.Tactic

/-!
# Authenticated encryption, as an ideal

`sealWith` makes a frame from a message, a nonce and a key, and `openWith` gives the message back or
refuses. A `Call` records the arguments of one use of `sealWith`.

What makes the box ideal is not a property of the two functions alone: an attacker who may put any
frame on the wire can, as a matter of functions, happen on a sealed one. It is a statement about a
frame and the calls made so far under a key (`Ideal`): the frame is opened exactly when one of
those calls made it, under that nonce, and then to the message that was sealed. A model asks it
of each frame that arrives, at the time it arrives.

`transparent` is a box that writes its nonce and key in front of the message. It hides nothing, but
of a frame that was not made by accident it is ideal (`transparent_ideal`), and it is what examples
run on.
-/

set_option autoImplicit false

namespace Kit

structure SecretBox (Key Nonce Msg Frame : Type) where
  sealWith : Msg → Nonce → Key → Frame
  openWith : Frame → Nonce → Key → Option Msg

namespace SecretBox

/-- The arguments of one call of `sealWith`. -/
structure Call (Key Nonce Msg : Type) where
  msg : Msg
  nonce : Nonce
  key : Key
deriving DecidableEq, Repr

variable {Key Nonce Msg Frame : Type}

/-- What a call made. -/
def Call.frame (box : SecretBox Key Nonce Msg Frame) (c : Call Key Nonce Msg) : Frame :=
  box.sealWith c.msg c.nonce c.key

/-- The frame is opened under a nonce exactly when one of the calls made it under that nonce and
this key, and it opens to what that call sealed. -/
def Ideal (box : SecretBox Key Nonce Msg Frame) (key : Key) (calls : List (Call Key Nonce Msg))
    (frame : Frame) : Prop :=
  ∀ nonce msg, box.openWith frame nonce key = some msg ↔
    ∃ c ∈ calls, c.nonce = nonce ∧ c.key = key ∧ c.msg = msg ∧ c.frame box = frame

variable {box : SecretBox Key Nonce Msg Frame} {key : Key} {calls : List (Call Key Nonce Msg)}
  {frame : Frame}

/-- Two calls that made the same frame under one nonce sealed the same message. -/
theorem Ideal.msg_eq (h : box.Ideal key calls frame) {c c' : Call Key Nonce Msg} (hc : c ∈ calls)
    (hc' : c' ∈ calls) (hk : c.key = key) (hk' : c'.key = key) (hn : c.nonce = c'.nonce)
    (hf : c.frame box = frame) (hf' : c'.frame box = frame) : c.msg = c'.msg := by
  have hopen := (h c.nonce c.msg).mpr ⟨c, hc, rfl, hk, rfl, hf⟩
  have hopen' := (h c.nonce c'.msg).mpr ⟨c', hc', hn.symm, hk', rfl, hf'⟩
  exact Option.some.inj (hopen.symm.trans hopen')

/-! ## A box to run examples on -/

/-- A box over byte strings whose frames are the nonce, the key and the message in a row. -/
def transparent : SecretBox (List UInt8) (List UInt8) (List UInt8) (List UInt8) where
  sealWith msg nonce key := nonce ++ key ++ msg
  openWith frame nonce key :=
    if frame.take (nonce ++ key).length = nonce ++ key
    then some (frame.drop (nonce ++ key).length) else none

theorem transparent_openWith (frame nonce key msg : List UInt8) :
    transparent.openWith frame nonce key = some msg ↔ frame = nonce ++ key ++ msg := by
  unfold transparent
  constructor
  · intro h
    simp only [Option.ite_none_right_eq_some, Option.some.injEq] at h
    obtain ⟨htake, hdrop⟩ := h
    rw [← List.take_append_drop (nonce ++ key).length frame, htake, hdrop]
  · rintro rfl
    simp only [List.take_left, List.drop_left, if_true]

/-- Of a frame whose every cut that reads as a sealed message is a call that was made, the
transparent box is ideal. -/
theorem transparent_ideal {key frame : List UInt8}
    {calls : List (Call (List UInt8) (List UInt8) (List UInt8))}
    (h : ∀ i ≤ frame.length, (frame.drop i).take key.length = key →
      ⟨frame.drop (i + key.length), frame.take i, key⟩ ∈ calls) :
    transparent.Ideal key calls frame := by
  intro nonce msg
  rw [transparent_openWith]
  constructor
  · rintro rfl
    have hcall := h nonce.length (by simp only [List.length_append]; omega)
      (by rw [List.append_assoc, List.drop_left, List.take_left])
    rw [← List.length_append, List.drop_left, List.append_assoc, List.take_left] at hcall
    refine ⟨_, hcall, rfl, rfl, rfl, ?_⟩
    simp only [Call.frame, transparent]
  · rintro ⟨c, -, rfl, rfl, rfl, hf⟩
    exact hf.symm

end SecretBox

end Kit
