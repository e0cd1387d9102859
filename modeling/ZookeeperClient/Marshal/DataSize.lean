import ZookeeperClient.Marshal.Calls
import ZookeeperClient.Marshal.Reads
import ZookeeperClient.Text.Encoding

/-!
# The size of data

`assert_valid_data_size!` asks for less than 2^20 of what `String#length` counts, which are the
characters of a string in its encoding. The C client is given the number of bytes as an `int`, and
a synchronous `get` reads them back with a buffer of 2^20 bytes.

## Main definitions

- `Fits` — data that is accepted is short enough, and can be read back

## Main results

- `fits_iff` — data fits unless it has 2^20 bytes or more in fewer characters
- `not_fits` — a string of 600000 characters of two bytes
-/

namespace ZookeeperClient

namespace Marshal

open Text

/-- The bytes that a value of `:data` stands for. -/
def dataBytes : RubyValue → Option Bytes
  | .str s => some s
  | _ => none

/-- Whenever `set` or `create` calls the C client with the data, which is a string of the encoding
if it is a string at all, the length is below 2^20, and a buffer of `get` that holds what was
sent is read back as the data. -/
def Fits (e : Encoding) (data : RubyValue) : Prop :=
  ∀ m h env answer options t rv args, Key.data ∈ (Zookeeper.operation ZooArgs m).supported →
    options.get .data = data →
    (∀ v s, options.lookup .data = some v → v.value = .str s → v.toSLength = e.chars s) →
    ((Zookeeper.operation ZooArgs m).run (argsBase h env answer) options t).result =
      .ok (rv, some args) →
    ∃ d, args.data = some d ∧ d.2 < 1048576 ∧
      ∃ stored, clientData d = .ok stored ∧
        ∀ out : Output, out.HoldsData stored → readBuffer out = .ok (dataBytes data)

/-- `set` calls the C client with any string that has less than 2^20 characters. -/
theorem run_set_sample {e : Encoding} {s : Bytes} (hsize : e.chars s < 1048576) :
    ∃ h env answer t rv args, ((Zookeeper.operation ZooArgs .set).run (argsBase h env answer)
      [(.path, ⟨.str [47], 1, ⟨0, false⟩⟩), (.data, ⟨.str s, e.chars s, ⟨1, false⟩⟩)]
      t).result = .ok (rv, some args) := by
  let h : CHandle :=
    { host := [], state := 3, connected := true, isOpen := true,
      answer := ⟨ZOK, none, ⟨0, 0, 0, 0, 0, 0, 0, 0, 0, 0, 0⟩, [], [], [], true⟩ }
  let base : ZookeeperBase ZooArgs := argsBase h .zeroed fun _ => { rc := ZOK }
  let options : Options :=
    [(.path, ⟨.str [47], 1, ⟨0, false⟩⟩), (.data, ⟨.str s, e.chars s, ⟨1, false⟩⟩)]
  have hcheck : (Zookeeper.operation ZooArgs .set).check base options = .ok () := by
    show (if 1048576 ≤ e.chars s then Except.error OperationError.dataTooLarge else .ok ()) = _
    exact if_neg (by omega)
  let args : ZooArgs :=
    { path := rstringPtr [47], data := some (some (rstringPtr s), toInt s.length),
      version := some (-1) }
  have hcall : (Zookeeper.operation ZooArgs .set).call base 0
      ((Zookeeper.operation ZooArgs .set).withDefault options) = .ok ({ rc := ZOK }, some args) :=
    rfl
  exact ⟨h, .zeroed, fun _ => { rc := ZOK }, ⟨0, fun _ => none, fun _ => none⟩, _, args,
    Operation.result_of_call hcheck hcall⟩

/-- What is read back is what was sent, if the buffer has room for it. -/
theorem readBuffer_of_lt {s : Bytes} (hsize : s.length < 1048576) {out : Output}
    (hout : out.HoldsData (some s)) : readBuffer out = .ok (some s) := by
  refine readBuffer_eq (fun bytes hbytes => ?_) hout
  obtain rfl := Option.some.inj hbytes
  exact Nat.le_of_lt hsize

theorem fits_of_length {e : Encoding} {data : RubyValue}
    (hfits : ∀ s, data = .str s → s.length < 1048576 ∨ 1048576 ≤ e.chars s) : Fits e data := by
  intro m h env answer options t rv args hsupported hget hchars hrun
  obtain ⟨hcheck, -⟩ := Operation.run_eq_ok hrun
  obtain ⟨d, hd, hargs⟩ := (passedBy_of_run hrun).data hsupported
  rw [hget] at hd
  refine ⟨d, hargs, ?_⟩
  cases data with
  | nil =>
    obtain rfl : (none, toInt (2 ^ 64 - 1)) = d := Except.ok.inj hd
    refine ⟨by decide, none, rfl, fun out hout => readBuffer_eq nofun hout⟩
  | str s =>
    have hsize : s.length < 1048576 := by
      obtain hlt | hmany := hfits s rfl
      · exact hlt
      · -- a string with that many characters is rejected
        obtain ⟨v, hlookup, hvalue⟩ := Options.lookup_of_get hget nofun
        have hfew := toSLength_of_check hcheck hlookup hvalue
        rw [hchars v s hlookup hvalue] at hfew
        omega
    obtain ⟨hlen, hstored⟩ := clientData_of_dataArgs (by omega) hd
    exact ⟨by omega, some s, hstored, fun out hout => readBuffer_of_lt hsize hout⟩
  | _ => cases hd

theorem length_of_fits {e : Encoding} {s : Bytes} (hfits : Fits e (.str s)) :
    s.length < 1048576 ∨ 1048576 ≤ e.chars s := by
  by_contra hlong
  obtain ⟨hbytes, hchars⟩ := not_or.mp hlong
  have hwidth := e.length_le_mul_chars s
  obtain ⟨h, env, answer, t, rv, args, hrun⟩ := run_set_sample (e := e) (s := s) (by omega)
  have hget : Options.get [(.path, ⟨.str [47], 1, ⟨0, false⟩⟩),
      (.data, ⟨.str s, e.chars s, ⟨1, false⟩⟩)] .data = .str s := rfl
  obtain ⟨d, hargs, hsmall, -⟩ := hfits .set h env answer _ t rv args (by decide) hget
    (by
      intro v s' hlookup hvalue
      obtain rfl := Option.some.inj hlookup
      obtain rfl := RubyValue.str.inj hvalue
      rfl) hrun
  obtain ⟨d', hd, hargs'⟩ := (passedBy_of_run hrun).data (by decide)
  obtain rfl : d = d' := Option.some.inj (hargs.symm.trans hargs')
  rw [hget] at hd
  have hlen := (clientData_of_dataArgs (by omega) hd).1
  omega

/-- **When data fits.** Data that `set` or `create` accepts is handed to the C client with a
length below 2^20, and is read back as it was, if and only if it is no string of 2^20 bytes or
more that has fewer characters than that. -/
theorem fits_iff (e : Encoding) (data : RubyValue) :
    Fits e data ↔ ∀ s, data = .str s → s.length < 1048576 ∨ 1048576 ≤ e.chars s := by
  refine ⟨?_, fits_of_length⟩
  rintro hfits s rfl
  exact length_of_fits hfits

/-- Where `length` counts bytes, everything fits. -/
theorem fits_binary (data : RubyValue) : Fits binary data :=
  fits_of_length fun s _ => by
    rw [chars_binary]
    exact Nat.lt_or_ge _ _

/-- 600000 times `é` has 1200000 bytes, and less than 2^20 characters. -/
theorem not_fits : ¬∀ e data, Fits e data := by
  intro hall
  have hchars : utf8.chars (List.replicate 600000 [0xC3, 0xA9]).flatten = 600000 :=
    utf8.chars_flatten_replicate (fun _ => rfl) 600000
  have hbytes : (List.replicate 600000 ([0xC3, 0xA9] : Bytes)).flatten.length = 600000 * 2 := by
    rw [List.length_flatten, List.map_replicate, List.sum_replicate_nat]
    rfl
  obtain hlen | hmany := length_of_fits
    (hall utf8 (.str (List.replicate 600000 [0xC3, 0xA9]).flatten))
  · omega
  · omega

end Marshal

end ZookeeperClient
