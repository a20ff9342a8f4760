import Usbip.Library.Layout
import Usbip.Libusbip

namespace Usbip.Libusbip

open Usbip.Library.Layout
open Usbip.Library.Words
open Usbip.VhciIoctl

theorem overwrite_of_le {buf new : List Byte} {offset : Nat} (h : offset + new.length ≤ buf.length) :
    overwrite buf offset new = buf.take offset ++ (new ++ buf.drop (offset + new.length)) := by
  rw [overwrite, List.append_assoc]
  refine List.take_of_length_le ?_
  simp only [List.length_append, List.length_take, List.length_drop]
  omega

-- Bytes written over as many others.
theorem overwrite_of_append {buf before old rest new : List Byte} {offset : Nat} (hbuf : buf = before ++ (old ++ rest))
    (hoffset : offset = before.length) (hlength : old.length = new.length) :
    overwrite buf offset new = before ++ (new ++ rest) := by
  subst hbuf hoffset
  have hdrop : (before ++ (old ++ rest)).drop (before.length + new.length) = rest := by
    rw [← List.append_assoc, ← hlength, ← List.length_append, List.drop_left]
  rw [overwrite_of_le, List.take_left, hdrop]
  simp only [List.length_append]
  omega

theorem length_overwrite (buf new : List Byte) (offset : Nat) : (overwrite buf offset new).length = buf.length := by
  rw [overwrite, List.length_take, List.length_append, List.length_append, List.length_take, List.length_drop]
  omega

-- What is written at the start of a buffer that has room for it.
theorem take_overwrite_zero {buf new : List Byte} (h : new.length ≤ buf.length) :
    (overwrite buf 0 new).take new.length = new := by
  rw [overwrite_of_le (by rwa [Nat.zero_add]), List.take_zero, List.nil_append, List.take_left]

-- A whole buffer is replaced.
theorem overwrite_all {buf new : List Byte} (h : new.length = buf.length) : overwrite buf 0 new = new := by
  have htake : (overwrite buf 0 new).take new.length = new := take_overwrite_zero h.le
  rwa [List.take_of_length_le (by rw [length_overwrite, h])] at htake

-- The driver has filled the caller's buffer.
theorem deviceIoControl_of_success (handler : Request → Reply) (pool : Nat → Byte) {input output out : List Byte}
    (h : handler (systemRequest input output.length pool) =
      { status := .STATUS_SUCCESS, information := output.length, output := out })
    (hlen : out.length = output.length) :
    deviceIoControl handler pool input output = { error := none, bytesReturned := output.length, output := out } := by
  have hcopied : overwrite output 0 (out.take output.length) = out := by
    rw [List.take_of_length_le hlen.le, overwrite_all hlen]
  unfold deviceIoControl
  rw [h]
  simp only [NTSTATUS.isError, NTSTATUS.isSuccess, hcopied, if_true, Bool.not_true, Bool.false_eq_true, if_false]

theorem deviceIoControl_of_error (handler : Request → Reply) (pool : Nat → Byte) {input output : List Byte}
    {reply : Reply} (h : handler (systemRequest input output.length pool) = reply)
    (herr : reply.status.isError = true) :
    deviceIoControl handler pool input output =
      { error := some (dosError reply.status), bytesReturned := 0, output := output } := by
  have hne : reply.status ≠ .STATUS_SUCCESS := by
    intro hsuccess
    rw [hsuccess] at herr
    cases herr
  unfold deviceIoControl
  rw [h]
  simp only [if_neg hne, if_pos herr]

theorem holds_byteAt (first bytes rest : List Byte) :
    Holds (byteAt (first ++ (bytes ++ rest))) first.length bytes := by
  rw [← List.append_assoc]
  exact holds_getD_append first bytes rest fun _ => 0

theorem ulongAt_of_holds {buffer : List Byte} {offset : Nat} {word : UInt32}
    (h : Holds (byteAt buffer) offset (bytes32 word)) : ulongAt buffer offset = word :=
  h.le32

end Usbip.Libusbip
