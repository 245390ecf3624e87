import Mathlib.Algebra.Group.Nat.Defs
import TwirpClients.Wire.Record
import TwirpClients.Wire.Writer

/-!
# Reading what was written

A reader reads a value from some bytes if it takes exactly these off every input that starts with
them (`Reads`), and a repeated reader fills them if it takes off one value after the other up to
their end (`Fills`). Both are stated for any rest behind the bytes, because a length is checked
against all that is left, and so the parts of a message can be put together.

Keys and lengths are numbers. What a number needs is that it fits the width it is read with, and
since any width will do for that, a written number is also told apart from what follows it.
-/

namespace TwirpClients.Wire

theorem fromUTF8?_toUTF8 (s : String) : String.fromUTF8? s.toUTF8 = some s := by
  simp only [String.fromUTF8?, String.toUTF8_eq_toByteArray, s.isValidUTF8, dif_pos]
  rfl

theorem eq_of_utf8_eq {s t : String} (h : s.toUTF8.data.toList = t.toUTF8.data.toList) : s = t :=
  String.toByteArray_inj.1 (ByteArray.ext (Array.toList_inj.1 h))

theorem WireType.code_lt (wireType : WireType) : wireType.code < 8 := by
  cases wireType <;> decide

namespace Reader

variable {α β : Type}

def Reads (r : Reader α) (bytes : Bytes) (a : α) : Prop :=
  ∀ rest, r (bytes ++ rest) = .ok (a, rest)

theorem bind_of_ok {r : Reader α} {f : α → Reader β} {bytes rest : Bytes} {a : α}
    (h : r bytes = .ok (a, rest)) : (r >>= f) bytes = f a rest := by
  change (r bytes >>= fun result => f result.1 result.2) = _
  rw [h]
  rfl

theorem bind_of_error {r : Reader α} {f : α → Reader β} {bytes : Bytes} {e : DecodeError}
    (h : r bytes = .error e) : (r >>= f) bytes = .error e := by
  change (r bytes >>= fun result => f result.1 result.2) = _
  rw [h]
  rfl

theorem remaining_bind (f : Nat → Reader β) (bytes : Bytes) :
    (remaining >>= f) bytes = f bytes.length bytes := rfl

theorem reads_pure (a : α) : Reads (pure a) [] a := fun _ => rfl

theorem Reads.bind {r : Reader α} {f : α → Reader β} {first second : Bytes} {a : α} {b : β}
    (hr : Reads r first a) (hf : Reads (f a) second b) : Reads (r >>= f) (first ++ second) b := by
  intro rest
  rw [List.append_assoc, bind_of_ok (hr (second ++ rest)), hf rest]

theorem Reads.bind_pure {r : Reader α} {bytes : Bytes} {a : α} (hr : Reads r bytes a)
    (f : α → β) : Reads (r >>= fun a => pure (f a)) bytes (f a) := by
  have h := hr.bind (f := fun a => pure (f a)) (reads_pure (f a))
  rwa [List.append_nil] at h

theorem Reads.within {r : Reader α} {bytes : Bytes} {a : α} (hr : Reads r bytes a)
    (field : FieldName) : Reads (r.within field) bytes a := by
  intro rest
  rw [Reader.within, hr rest]
  rfl

theorem toNat_toUInt8_of_lt {n : Nat} (h : n < 256) : n.toUInt8.toNat = n := by
  simp [Nat.mod_eq_of_lt h]

theorem reads_varintWithin {bits n : Nat} (h : n < 2 ^ bits) :
    Reads (varintWithin bits) (Writer.varint n) n := by
  induction n using Nat.strongRecOn generalizing bits with
  | ind n ih =>
    intro rest
    rw [Writer.varint]
    by_cases hn : n < 128
    · have hbyte := toNat_toUInt8_of_lt (show n < 256 by omega)
      simp only [hn, if_true, List.cons_append, List.nil_append, varintWithin, hbyte, Nat.pow_eq, h]
    · have hbyte := toNat_toUInt8_of_lt (show n % 128 + 128 < 256 by omega)
      have hbits : 7 < bits := by
        apply Nat.lt_of_not_le
        intro hle
        have hpow : 2 ^ bits ≤ 2 ^ 7 := Nat.pow_le_pow_right (by omega) hle
        omega
      have hhigh : n / 128 < 2 ^ (bits - 7) := by
        have hpow : 2 ^ bits = 2 ^ (bits - 7) * 128 := by
          rw [← Nat.pow_add 2 (bits - 7) 7, Nat.sub_add_cancel (Nat.le_of_lt hbits)]
        omega
      have hsmall : ¬ n % 128 + 128 < 128 := by omega
      have hvalue : n % 128 + 128 - 128 + 128 * (n / 128) = n := by omega
      simp only [hn, if_false, List.cons_append, varintWithin, hbyte, hsmall, hbits, if_true,
        ih (n / 128) (by omega) hhigh rest, Except.map, hvalue]

theorem reads_varint {n : Nat} (h : n < 2 ^ 64) : Reads varint (Writer.varint n) n :=
  reads_varintWithin h

theorem varint_append_inj {m n : Nat} {rest rest' : Bytes}
    (h : Writer.varint m ++ rest = Writer.varint n ++ rest') : m = n ∧ rest = rest' := by
  have hm : m < 2 ^ (m + n) :=
    Nat.lt_of_lt_of_le Nat.lt_two_pow_self (Nat.pow_le_pow_right (by omega) (by omega))
  have hn : n < 2 ^ (m + n) :=
    Nat.lt_of_lt_of_le Nat.lt_two_pow_self (Nat.pow_le_pow_right (by omega) (by omega))
  have hread := reads_varintWithin hm rest
  rw [h, reads_varintWithin hn rest'] at hread
  simpa [eq_comm] using hread

theorem reads_key {tag : Nat} (hpos : 0 < tag) (hlt : tag < 2 ^ 29) (wireType : WireType) :
    Reads key (Writer.key tag wireType) (tag, wireType) := by
  have hcode := wireType.code_lt
  have hvalue : tag * 8 + wireType.code < 2 ^ 64 := by omega
  have hmax : ¬ maxKey < tag * 8 + wireType.code := by
    simp only [maxKey]
    omega
  have hmod : (tag * 8 + wireType.code) % 8 = wireType.code := by omega
  have hdiv : (tag * 8 + wireType.code) / 8 = tag := by omega
  have hne : ¬ tag = 0 := by omega
  intro rest
  rw [key, Writer.key, bind_of_ok (reads_varint hvalue rest)]
  simp only [gt_iff_lt, hmax, if_false, hmod, WireType.ofCode?_code, hdiv, hne]
  rfl

theorem reads_take (bytes : Bytes) : Reads (take bytes.length) bytes bytes := by
  intro rest
  simp [take]

theorem reads_block {bytes : Bytes} (h : bytes.length < 2 ^ 64) :
    Reads block (Writer.block bytes) bytes :=
  Reads.bind (reads_varint h) (reads_take bytes)

theorem reads_text {s : String} (h : s.toUTF8.data.toList.length < 2 ^ 64) :
    Reads text (Writer.block s.toUTF8.data.toList) s := by
  intro rest
  rw [text, bind_of_ok (reads_block h rest)]
  have hdecode : String.fromUTF8? ⟨s.toUTF8.data.toList.toArray⟩ = some s := fromUTF8?_toUTF8 s
  simp only [hdecode]
  rfl

theorem collect_of_none {step : Reader (Option α)} {bytes rest : Bytes}
    (h : step bytes = .ok (none, rest)) : collect step bytes = .ok ([], rest) := by
  rw [collect, h]

theorem collect_of_some {step : Reader (Option α)} {bytes rest : Bytes} {a : α}
    (h : step bytes = .ok (some a, rest)) (hrest : rest.length < bytes.length) :
    collect step bytes = (collect step rest).map fun (as, rest) => (a :: as, rest) := by
  rw [collect, h]
  simp only [hrest, if_true]

theorem collect_of_error {step : Reader (Option α)} {bytes : Bytes} {e : DecodeError}
    (h : step bytes = .error e) : collect step bytes = .error e := by
  rw [collect, h]

def round (limit : Nat) (body : Reader α) : Reader (Option α) := do
  if (← remaining) ≤ limit then return none
  return some (← body)

theorem downTo_eq_collect (limit : Nat) (body : Reader α) :
    downTo limit body = collect (round limit body) := rfl

theorem round_of_lt {limit : Nat} {bytes : Bytes} (body : Reader α) (h : limit < bytes.length) :
    round limit body bytes = (body >>= fun a => pure (some a)) bytes := by
  rw [round, remaining_bind, if_neg (Nat.not_le.2 h)]

theorem downTo_of_le {limit : Nat} {bytes : Bytes} (body : Reader α) (h : bytes.length ≤ limit) :
    downTo limit body bytes = .ok ([], bytes) := by
  have hround : round limit body bytes = .ok (none, bytes) := by
    rw [round, remaining_bind, if_pos h]
    rfl
  rw [downTo_eq_collect, collect_of_none hround]

theorem downTo_of_ok {limit : Nat} {body : Reader α} {bytes rest : Bytes} {a : α}
    (hlimit : limit < bytes.length) (hbody : body bytes = .ok (a, rest))
    (hrest : rest.length < bytes.length) :
    downTo limit body bytes
      = (downTo limit body rest).map fun (as, rest) => (a :: as, rest) := by
  have hround : round limit body bytes = .ok (some a, rest) := by
    rw [round_of_lt body hlimit]
    exact bind_of_ok hbody
  rw [downTo_eq_collect, collect_of_some hround hrest]

theorem downTo_of_error {limit : Nat} {body : Reader α} {bytes : Bytes} {e : DecodeError}
    (hlimit : limit < bytes.length) (hbody : body bytes = .error e) :
    downTo limit body bytes = .error e := by
  have hround : round limit body bytes = .error e := by
    rw [round_of_lt body hlimit]
    exact bind_of_error hbody
  rw [downTo_eq_collect, collect_of_error hround]

def Fills (body : Reader α) (bytes : Bytes) (values : List α) : Prop :=
  ∀ rest, downTo rest.length body (bytes ++ rest) = .ok (values, rest)

theorem fills_nil (body : Reader α) : Fills body [] [] :=
  fun _ => downTo_of_le body (Nat.le_refl _)

theorem Reads.fills_cons {body : Reader α} {first bytes : Bytes} {a : α} {values : List α}
    (hfirst : Reads body first a) (hne : first ≠ []) (hbytes : Fills body bytes values) :
    Fills body (first ++ bytes) (a :: values) := by
  intro rest
  have hpos := List.length_pos_iff.2 hne
  have hlimit : rest.length < (first ++ (bytes ++ rest)).length := by
    simp only [List.length_append]
    omega
  have hrest : (bytes ++ rest).length < (first ++ (bytes ++ rest)).length := by
    simp only [List.length_append]
    omega
  rw [List.append_assoc, downTo_of_ok hlimit (hfirst (bytes ++ rest)) hrest, hbytes rest]
  rfl

theorem Fills.delimited_append {body : Reader α} {lead bytes : Bytes} {values : List α}
    (hfills : Fills body bytes values) (hlead : Reads varint lead bytes.length) :
    Reads (delimited body) (lead ++ bytes) values := by
  intro rest
  have hleft : ¬ (bytes ++ rest).length < bytes.length := by simp
  have hlimit : (bytes ++ rest).length - bytes.length = rest.length := by simp
  rw [List.append_assoc, Reader.delimited, bind_of_ok (hlead (bytes ++ rest)), remaining_bind]
  simp only [hleft, if_false, hlimit]
  rw [bind_of_ok (hfills rest), remaining_bind]
  simp only [ne_eq, not_true_eq_false, if_false]
  rfl

theorem Fills.delimited {body : Reader α} {bytes : Bytes} {values : List α}
    (hfills : Fills body bytes values) (hlength : bytes.length < 2 ^ 64) :
    Reads (delimited body) (Writer.block bytes) values :=
  hfills.delimited_append (reads_varint hlength)

end Reader
end TwirpClients.Wire
