import TwirpClients.Proofs.Fallible
import TwirpClients.Proofs.Wire.Reading

/-!
# Readers do not look ahead

A length is checked against all that is left of the input, and the end of a message is a number of
bytes left behind it, so every reader sees what follows its value. It makes no use of it: the bytes
that were taken off one input are taken off in front of anything else (`Steady`). This is shown
for all bytes that are accepted, whether or not they could have been written.

A repetition ends only because each round takes something off. A reader that has no value without
input does (`NeedsInput`).
-/

namespace TwirpClients.Wire.Reader

variable {α β : Type} {r : Reader α} {f : α → Reader β} {body : Reader α} {bytes rest : Bytes}

def Steady (r : Reader α) : Prop :=
  ∀ bytes a rest, r bytes = .ok (a, rest) → ∃ taken, bytes = taken ++ rest ∧ Reads r taken a

def NeedsInput (r : Reader α) : Prop := ∀ result, r [] ≠ .ok result

theorem bind_eq_ok {b : β} (h : (r >>= f) bytes = .ok (b, rest)) :
    ∃ a middle, r bytes = .ok (a, middle) ∧ f a middle = .ok (b, rest) := by
  obtain ⟨⟨a, middle⟩, hr, hf⟩ := bind_ok_iff.1 h
  exact ⟨a, middle, hr, hf⟩

theorem steady_pure (a : α) : Steady (pure a) := by
  intro bytes b rest h
  cases h
  exact ⟨[], rfl, reads_pure a⟩

theorem steady_fail (reason : DecodeError.Reason) : Steady (fail reason : Reader α) := by
  intro bytes a rest h
  cases h

theorem Steady.bind (hr : Steady r) (hf : ∀ a, Steady (f a)) : Steady (r >>= f) := by
  intro bytes b rest h
  obtain ⟨a, middle, hfirst, hsecond⟩ := bind_eq_ok h
  obtain ⟨first, hbytes, hreads⟩ := hr bytes a middle hfirst
  obtain ⟨second, hmiddle, hreads'⟩ := hf a middle b rest hsecond
  refine ⟨first ++ second, ?_, hreads.bind hreads'⟩
  rw [hbytes, hmiddle, List.append_assoc]

theorem Steady.bind_pure (hr : Steady r) (f : α → β) : Steady (r >>= fun a => pure (f a)) :=
  hr.bind fun a => steady_pure (f a)

theorem Steady.discard (hr : Steady r) : Steady (Functor.discard r) := by
  have hbind : Functor.discard r = r >>= fun _ => pure PUnit.unit := by
    rw [Functor.discard, LawfulFunctor.map_const]
    exact map_eq_pure_bind _ _
  rw [hbind]
  exact hr.bind_pure _

theorem Steady.ite {c : Prop} [Decidable c] {r' : Reader α} (hr : Steady r) (hr' : Steady r') :
    Steady (if c then r else r') := by
  split
  · exact hr
  · exact hr'

theorem Steady.guard {c : Prop} [Decidable c] {next : Unit → Reader α} (h : Steady (next ()))
    (reason : DecodeError.Reason) : Steady (if c then fail reason >>= next else next ()) :=
  ((steady_fail reason).bind fun _ => h).ite h

theorem Steady.within (hr : Steady r) (field : FieldName) : Steady (r.within field) := by
  intro bytes a rest h
  cases hresult : r bytes with
  | error e =>
    rw [Reader.within, hresult] at h
    cases h
  | ok result =>
    rw [Reader.within, hresult] at h
    cases h
    obtain ⟨taken, hbytes, hreads⟩ := hr bytes a rest hresult
    exact ⟨taken, hbytes, hreads.within field⟩

theorem NeedsInput.bind (hr : NeedsInput r) (f : α → Reader β) : NeedsInput (r >>= f) := by
  intro ⟨b, rest⟩ h
  obtain ⟨a, middle, hfirst, -⟩ := bind_eq_ok h
  exact hr _ hfirst

theorem NeedsInput.length_pos (hr : NeedsInput r) {taken : Bytes} {a : α} (h : Reads r taken a) :
    0 < taken.length := by
  apply List.length_pos_iff.2
  intro hnil
  rw [hnil] at h
  exact hr _ (h [])

theorem Steady.length_lt (hr : Steady r) (hinput : NeedsInput r) {a : α}
    (h : r bytes = .ok (a, rest)) : rest.length < bytes.length := by
  obtain ⟨taken, hbytes, hreads⟩ := hr bytes a rest h
  have hpos := hinput.length_pos hreads
  rw [hbytes, List.length_append]
  omega

/-! ## Numbers and blocks -/

theorem steady_take (n : Nat) : Steady (take n) := by
  intro bytes a rest h
  unfold take at h
  split at h
  · cases h
  · next hlength =>
    rw [List.splitAt_eq] at h
    cases h
    have htaken : (bytes.take n).length = n := by
      rw [List.length_take]
      omega
    have hreads := reads_take (bytes.take n)
    rw [htaken] at hreads
    exact ⟨bytes.take n, (List.take_append_drop n bytes).symm, hreads⟩

theorem steady_varintWithin (bits : Nat) : Steady (varintWithin bits) := by
  intro bytes n rest h
  induction bytes generalizing bits n with
  | nil => cases h
  | cons b bytes ih =>
    unfold varintWithin at h
    split at h
    · next hlast =>
      split at h
      · next hsize =>
        cases h
        refine ⟨[b], rfl, fun more => ?_⟩
        simp only [List.singleton_append, varintWithin, hlast, hsize, if_true]
      · cases h
    · next hlast =>
      split at h
      · next hbits =>
        obtain ⟨⟨high, last⟩, hhigh, hvalue⟩ := map_ok_iff.1 h
        cases hvalue
        obtain ⟨taken, hbytes, hreads⟩ := ih (bits - 7) high hhigh
        refine ⟨b :: taken, ?_, fun more => ?_⟩
        · rw [hbytes, List.cons_append]
        · simp only [List.cons_append, varintWithin, hlast, hbits, if_false, if_true, hreads more,
            Except.map]
      · cases h

theorem steady_varint : Steady varint := steady_varintWithin 64

theorem needsInput_varint : NeedsInput varint := by
  intro result h
  cases h

theorem steady_key : Steady key := by
  apply steady_varint.bind
  intro value
  apply Steady.guard
  cases WireType.ofCode? (value % 8) with
  | none => exact steady_fail _
  | some wireType =>
    apply Steady.guard
    exact steady_pure _

theorem needsInput_key : NeedsInput key := needsInput_varint.bind _

theorem steady_block : Steady block := steady_varint.bind steady_take

theorem steady_text : Steady text := by
  apply steady_block.bind
  intro bytes
  split
  · exact steady_pure _
  · exact steady_fail _

theorem steady_expect (expected actual : WireType) : Steady (expect expected actual) :=
  (steady_fail _).ite (steady_pure ())

/-! ## Repetition -/

theorem Steady.collect {step : Reader (Option α)} (hstep : Steady step)
    (hinput : NeedsInput step) : Steady (collect step) := by
  intro bytes values rest h
  fun_induction Reader.collect step bytes generalizing values with
  | case1 bytes e hresult => cases h
  | case2 bytes last hresult =>
    cases h
    obtain ⟨taken, hbytes, hreads⟩ := hstep bytes none rest hresult
    exact ⟨taken, hbytes, fun more => collect_of_none (hreads more)⟩
  | case3 bytes a middle hresult hlength ih =>
    obtain ⟨first, hbytes, hreads⟩ := hstep bytes (some a) middle hresult
    obtain ⟨⟨as, last⟩, hmiddle, hvalues⟩ := map_ok_iff.1 h
    cases hvalues
    obtain ⟨others, hothers, hreads'⟩ := ih as hmiddle
    refine ⟨first ++ others, ?_, fun more => ?_⟩
    · rw [hbytes, hothers, List.append_assoc]
    · have hfirst := hreads (others ++ more)
      rw [List.append_assoc, collect_of_some hfirst (hstep.length_lt hinput hfirst), hreads' more]
      rfl
  | case4 bytes a middle hresult hlength => exact absurd (hstep.length_lt hinput hresult) hlength

/-- What `downTo` takes off is one part after the other, each read by itself. -/
theorem exists_parts_of_downTo (hbody : Steady body) (hinput : NeedsInput body) {limit : Nat}
    {values : List α} (h : downTo limit body bytes = .ok (values, rest)) :
    ∃ parts, bytes = parts.flatten ++ rest ∧ List.Forall₂ (Reads body) parts values ∧
      rest.length ≤ limit := by
  induction hlength : bytes.length using Nat.strongRecOn generalizing bytes values with
  | ind n ih =>
    by_cases hlimit : bytes.length ≤ limit
    · rw [downTo_of_le body hlimit] at h
      cases h
      exact ⟨[], rfl, .nil, hlimit⟩
    · have hlimit : limit < bytes.length := Nat.lt_of_not_le hlimit
      cases hfirst : body bytes with
      | error e =>
        rw [downTo_of_error hlimit hfirst] at h
        cases h
      | ok result =>
        obtain ⟨a, middle⟩ := result
        have hshorter := hbody.length_lt hinput hfirst
        obtain ⟨first, hbytes, hreads⟩ := hbody bytes a middle hfirst
        rw [downTo_of_ok hlimit hfirst hshorter] at h
        obtain ⟨⟨as, last⟩, hmiddle, hvalues⟩ := map_ok_iff.1 h
        cases hvalues
        obtain ⟨parts, hparts, has, hrest⟩ := ih middle.length (by omega) hmiddle rfl
        refine ⟨first :: parts, ?_, .cons hreads has, hrest⟩
        rw [hbytes, hparts, List.flatten_cons, List.append_assoc]

theorem downTo_flatten_append (hinput : NeedsInput body) {parts : List Bytes} {values : List α}
    (h : List.Forall₂ (Reads body) parts values) {limit : Nat} (hlimit : limit ≤ rest.length) :
    downTo limit body (parts.flatten ++ rest)
      = (downTo limit body rest).map fun (more, last) => (values ++ more, last) := by
  induction h with
  | nil =>
    rw [List.flatten_nil, List.nil_append]
    cases downTo limit body rest <;> rfl
  | @cons first a parts values hfirst _ ih =>
    have hpos := hinput.length_pos hfirst
    have hshorter : (parts.flatten ++ rest).length < (first ++ (parts.flatten ++ rest)).length := by
      simp only [List.length_append]
      omega
    have habove : limit < (first ++ (parts.flatten ++ rest)).length := by
      simp only [List.length_append]
      omega
    rw [List.flatten_cons, List.append_assoc,
      downTo_of_ok habove (hfirst (parts.flatten ++ rest)) hshorter, ih]
    cases downTo limit body rest <;> rfl

theorem fills_flatten (hinput : NeedsInput body) {parts : List Bytes} {values : List α}
    (h : List.Forall₂ (Reads body) parts values) : Fills body parts.flatten values := by
  intro rest
  rw [downTo_flatten_append hinput h (Nat.le_refl _), downTo_of_le body (Nat.le_refl _)]
  simp only [Except.map, List.append_nil]

theorem Steady.delimited (hbody : Steady body) (hinput : NeedsInput body) :
    Steady (delimited body) := by
  intro bytes values rest h
  obtain ⟨length, after, hlength, h⟩ := bind_eq_ok h
  obtain ⟨lead, hbytes, hlead⟩ := steady_varint bytes length after hlength
  rw [remaining_bind] at h
  split at h
  · cases h
  · next hleft =>
    obtain ⟨_, _, hvalues, h⟩ := bind_eq_ok h
    rw [remaining_bind] at h
    split at h
    · cases h
    · next hend =>
      cases h
      obtain ⟨parts, hparts, hreads, -⟩ := exists_parts_of_downTo hbody hinput hvalues
      -- the run ends where its length says, so the parts together are as long as that
      have hsize : parts.flatten.length = length := by
        have htotal := congrArg List.length hparts
        rw [List.length_append] at htotal
        omega
      rw [← hsize] at hlead
      refine ⟨lead ++ parts.flatten, ?_, (fills_flatten hinput hreads).delimited_append hlead⟩
      rw [hbytes, hparts, List.append_assoc]

/-! ## Fields and messages -/

theorem steady_skip (depth : Nat) (wireType : WireType) (tag : Nat) :
    Steady (skip depth wireType tag) := by
  induction depth generalizing wireType tag with
  | zero => exact steady_fail _
  | succ depth ih =>
    cases wireType with
    | varint => exact steady_varint.discard
    | sixtyFourBit => exact (steady_take 8).discard
    | lengthDelimited => exact steady_block.discard
    | startGroup =>
      refine Steady.discard (Steady.collect (steady_key.bind ?_) (needsInput_key.bind _))
      rintro ⟨inner, wireType⟩
      apply Steady.ite
      · apply Steady.guard
        exact steady_pure none
      · exact (ih wireType inner).bind_pure some
    | endGroup => exact steady_fail _
    | thirtyTwoBit => exact (steady_take 4).discard

section Message

variable {nested : MessageType → Reader Record} {skip : WireType → Nat → Reader Unit}

theorem Steady.expect_bind (hr : Steady r) (expected actual : WireType) :
    Steady (expect expected actual >>= fun _ => r) :=
  (steady_expect expected actual).bind fun _ => hr

theorem steady_values (hnested : ∀ type, Steady (nested type)) (fieldType : FieldType)
    (wireType : WireType) : Steady (values nested fieldType wireType) := by
  cases fieldType with
  | text => exact (steady_text.bind_pure _).expect_bind _ _
  | bytes => exact (steady_block.bind_pure _).expect_bind _ _
  | number => exact (steady_varint.bind_pure _).expect_bind _ _
  | numbers =>
    cases wireType with
    | lengthDelimited => exact (steady_varint.delimited needsInput_varint).bind_pure _
    | _ => exact (steady_varint.bind_pure _).expect_bind _ _
  | double => exact ((steady_take 8).bind_pure _).expect_bind _ _
  | message type => exact ((hnested type).bind_pure _).expect_bind _ _

theorem steady_field (hnested : ∀ type, Steady (nested type))
    (hskip : ∀ wireType tag, Steady (skip wireType tag)) (type : MessageType) :
    Steady (field nested skip type) := by
  apply steady_key.bind
  rintro ⟨tag, wireType⟩
  dsimp only
  cases type.field? tag with
  | none => exact (hskip wireType tag).bind_pure _
  | some field => exact ((steady_values hnested field.type wireType).within _).bind_pure _

end Message

theorem needsInput_field (nested : MessageType → Reader Record)
    (skip : WireType → Nat → Reader Unit) (type : MessageType) :
    NeedsInput (field nested skip type) :=
  needsInput_key.bind _

theorem steady_message (depth : Nat) (type : MessageType) : Steady (message depth type) := by
  induction depth generalizing type with
  | zero => exact steady_fail _
  | succ depth ih =>
    have hfield := steady_field ih (steady_skip depth) type
    exact (hfield.delimited (needsInput_field _ _ type)).bind_pure _

end TwirpClients.Wire.Reader
