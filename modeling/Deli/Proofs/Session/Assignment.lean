import Deli.Proofs.Session.Call
import Deli.Session.Assignment

/-! Writing an attribute keeps a session in order, unless it is the one that stands for all fields
at once. What is written over is never a sandwich, since none of the fields of one can be written;
other attributes are kept beside the objects. -/

namespace Deli.Session

variable {h : Heap} {v new : Value} {name : String}

theorem keeps_writeAttribute (hnew : Sound h new) : Keeps h (writeAttribute v name new) := by
  unfold writeAttribute
  split
  next owner _ => exact keeps_write hnew owner name
  next => exact keeps_raise _

theorem keeps_writeMember (hnew : Sound h new) : Keeps h (writeMember v name new) := by
  unfold writeMember
  split
  · exact keeps_raise _
  · exact keeps_raise _
  · exact keeps_raise _
  · exact keeps_writeAttribute hnew

theorem keeps_writeFault (e : Fault) (hnew : Sound h new) : Keeps h (writeFault e name new) := by
  unfold writeFault
  split
  · refine (keepsFrom_items keepsFrom₂_apply h new le_rfl hnew).bind fun h₁ items _ hitems => ?_
    exact keeps_writeAttribute (sound_tuple.mpr hitems)
  · exact keeps_raise _
  · exact keeps_writeAttribute hnew

theorem keeps_writeFrozen (hname : name ≠ allFields) {o : Object} (ho : Sound h o) {form : Form}
    (hnew : Sound h new) : Keeps h (writeFrozen v o form name new) := by
  unfold writeFrozen
  rw [if_neg hname]
  refine .ite ?_ (keeps_raise _)
  split
  next => exact ho.elim
  next => exact keeps_writeAttribute hnew

theorem keeps_writeBeside (o : Object) (hnew : Sound h new) :
    Keeps h (writeBeside v o name new) := by
  unfold writeBeside
  split
  · exact .ite (keeps_writeAttribute hnew) (keeps_raise _)
  · exact keeps_raise _
  · exact keeps_raise _
  · exact keeps_raise _
  · exact keeps_raise _
  · exact keeps_raise _
  · exact keeps_raise _
  · exact keeps_writeAttribute hnew

theorem keeps_writeObject (hname : name ≠ allFields) (hh : h.Valid) {o : Object}
    (ho : h.object? v = some o) (hnew : Sound h new) : Keeps h (writeObject v o name new) := by
  unfold writeObject
  split
  next o' _ hfield =>
    obtain ⟨ho', hkind, hfinal⟩ := withField?_eq_some (hh.object? ho) hnew hfield
    exact keeps_replace ho' ⟨_, ho, hkind.symm⟩ (by rwa [hkind])
  next => exact keeps_writeFrozen hname (hh.object? ho) hnew
  next => exact keeps_writeBeside o hnew

theorem keeps_setAttribute (hname : name ≠ allFields) (hnew : Sound h new) :
    Keeps h (setAttribute v name new) := by
  refine keeps_bind_object? fun h₁ hle hh => ?_
  replace hnew := hnew.mono hle
  split
  · exact keeps_raise _
  · exact keeps_raise _
  · refine .ite (keeps_raise _) ?_
    split
    · exact keeps_writeMember hnew
    · exact keeps_writeMember hnew
    · exact keeps_writeMember hnew
    next e _ _ => exact keeps_writeFault e hnew
    next o _ _ _ _ ho => exact keeps_writeObject hname hh ho hnew
    next => exact keeps_raise _

end Deli.Session
