import PlaneReport.Proofs.Writer

/-!
# The bytes of texts

The bytes of appended texts are the appended bytes of the texts.
-/

namespace ByteArray

theorem toList_loop_eq (bytes : ByteArray) (i : Nat) (acc : List UInt8) :
    toList.loop bytes i acc = acc.reverse ++ bytes.data.toList.drop i := by
  induction i, acc using toList.loop.induct bytes with
  | case1 i acc hlt ih =>
    have hi : i < bytes.data.toList.length := by simpa using hlt
    have hget : bytes.get! i = bytes.data.toList[i] := by
      rw [get!, Array.getElem_toList]
      exact getElem!_pos bytes.data i (by simpa using hlt)
    rw [toList.loop, if_pos hlt, ih, List.drop_eq_getElem_cons hi, hget]
    simp
  | case2 i acc hge =>
    have hlength : bytes.data.toList.length ≤ i := by simpa using hge
    rw [toList.loop, if_neg hge, List.drop_eq_nil_of_le hlength, List.append_nil]

theorem toList_eq (bytes : ByteArray) : bytes.toList = bytes.data.toList := by
  rw [toList, toList_loop_eq]
  rfl

end ByteArray

namespace PlaneReport
namespace Writer

@[simp]
theorem toList_toUTF8_append (text more : String) :
    (text ++ more).toUTF8.toList = text.toUTF8.toList ++ more.toUTF8.toList := by
  rw [ByteArray.toList_eq, ByteArray.toList_eq, ByteArray.toList_eq, String.toUTF8_eq_toByteArray,
    String.toByteArray_append, ByteArray.toList_data_append]
  rfl

theorem bytesOf_eq (texts : List String) : bytesOf texts = (String.join texts).toUTF8.toList := by
  induction texts with
  | nil =>
    rw [ByteArray.toList_eq]
    rfl
  | cons text rest ih =>
    rw [String.join_cons, toList_toUTF8_append, ← ih]
    rfl

end Writer
end PlaneReport
