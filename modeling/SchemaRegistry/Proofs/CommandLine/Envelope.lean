import SchemaRegistry.CommandLine.Run
import SchemaRegistry.Proofs.Envelope
import SchemaRegistry.Proofs.Text.Blank
import SchemaRegistry.Proofs.Text.Hex
import SchemaRegistry.Proofs.Text.Integer

/-!
Envelopes on the command line. What one command prints, the other one reads: the ID, the size of the
payload and its beginning are those that were given.
-/

namespace SchemaRegistry.CommandLine

open SchemaRegistry.Settings (Surroundings)
open SchemaRegistry.Text (Padded)
open SchemaRegistry.Text.Hex (Spells lastDigits)

variable {h t : String} {payload : List UInt8}

/-! ### Arguments that spell bytes -/

lemma not_isBlank_of_mem_digits : ∀ c ∈ Text.Hex.digits, ¬ Text.isBlank c :=
  List.forall_iff_forall_mem.mp (by decide)

lemma ne_hyphen_of_mem_digits : ∀ c ∈ Text.Hex.digits, c ≠ '-' :=
  List.forall_iff_forall_mem.mp (by decide)

lemma bytes_of_padded (hspells : Spells h.toList payload) (hpadded : Padded h t) (what : String) :
    bytes what t = .ok payload := by
  have htrim : Text.trim t = h := by
    rw [Text.trim_of_padded hpadded]
    exact Text.trim_of_not_blank fun c hc => not_isBlank_of_mem_digits c (hspells.mem_digits c hc)
  rw [bytes, htrim, hspells.decode_eq]
  rfl

lemma head?_of_padded (hdigits : ∀ c ∈ h.toList, c ∈ Text.Hex.digits) (hpadded : Padded h t) :
    t.toList.head? ≠ some '-' := by
  obtain ⟨before, after, hbefore, hafter, ht⟩ := hpadded
  intro hhead
  have hmem := List.mem_of_head? hhead
  rw [ht, List.mem_append, List.mem_append] at hmem
  rcases hmem with (hmem | hmem) | hmem
  · exact absurd (hbefore _ hmem) (by decide)
  · exact ne_hyphen_of_mem_digits _ (hdigits _ hmem) rfl
  · exact absurd (hafter _ hmem) (by decide)

lemma head?_ofNat (n : Nat) : (Text.ofNat n).toList.head? ≠ some '-' := fun h =>
  absurd (Text.isDigit_of_mem_ofNat (List.mem_of_head? h)) (by decide)

lemma uint32?_ofNat (id : UInt32) : Text.uint32? (Text.ofNat id.toNat).toList = some id := by
  have hread : Text.int? (Text.ofNat id.toNat).toList = some (id.toNat : Int) := by
    rw [Text.int?_of_isDigit fun c => Text.isDigit_of_mem_ofNat, Text.nat?_ofNat]
    rfl
  rw [Text.uint32?, hread, Option.bind_eq_bind, Option.bind_some, Text.toUInt32?_toNat]

lemma padded_line (s : String) : Padded s (line s) := by
  refine Text.padded_of_all [] ['\n'] ⟨rfl, by decide, ?_⟩
  rw [line, String.toList_append, List.nil_append]
  rfl

/-! ### The commands -/

lemma parse_encode (id : UInt32) (ht : t.toList.head? ≠ some '-') :
    Command.parse ["encode", "--id", Text.ofNat id.toNat, t] = .ok (.encode id t) := by
  have hitems : readItems [idFlag] ["--id", Text.ofNat id.toNat, t] =
      [.option idFlag (Text.ofNat id.toNat), .positional t] := by
    rw [readItems_option (f := idFlag) (by decide) (head?_ofNat _), readItems_positional ht]
    rfl
  have hid : Given.take true {} (.option idFlag (Text.ofNat id.toNat)) = .ok { id := some id } := by
    simp only [Given.take, uint32?_ofNat]
    rfl
  rw [Command.parse, hitems, Given.takeAll, List.foldlM_cons, hid]
  rfl

lemma parse_header (ht : t.toList.head? ≠ some '-') :
    Command.parse ["header", t] = .ok (.header t) := by
  rw [Command.parse, readItems_positional ht]
  rfl

/-! ### What is printed -/

lemma flatMap_idBytes (id : UInt32) :
    (Envelope.idBytes id).flatMap Text.Hex.ofByte = (Nat.toDigits 16 id.toNat).leftpad 8 '0' := by
  have hlt := id.toNat_lt
  have hbyte (k : UInt32) :
      (id >>> k).toUInt8.toNat = id.toNat / 2 ^ (k.toNat % 32) % 256 := by
    rw [UInt32.toNat_toUInt8, UInt32.toNat_shiftRight, Nat.shiftRight_eq_div_pow]
  have h0 : id.toUInt8.toNat = id.toNat % 256 := UInt32.toNat_toUInt8 id
  have h1 : (id >>> 8).toUInt8.toNat = id.toNat / 256 % 256 := hbyte 8
  have h2 : (id >>> 16).toUInt8.toNat = id.toNat / 256 / 256 % 256 := by
    rw [hbyte 16, Nat.div_div_eq_div_mul]
    rfl
  have h3 : (id >>> 24).toUInt8.toNat = id.toNat / 256 / 256 / 256 % 256 := by
    rw [hbyte 24, Nat.div_div_eq_div_mul, Nat.div_div_eq_div_mul]
    rfl
  rw [Text.Hex.leftpad_toDigits (by omega), Text.Hex.lastDigits_add_two 6 h0,
    Text.Hex.lastDigits_add_two 4 h1, Text.Hex.lastDigits_add_two 2 h2,
    Text.Hex.lastDigits_add_two 0 h3]
  simp [Envelope.idBytes, lastDigits]

lemma encode_write (id : UInt32) (hspells : Spells h.toList payload) :
    Text.Hex.encode (Envelope.write ⟨id, payload⟩) =
      "00" ++ String.ofList ((Nat.toDigits 16 id.toNat).leftpad 8 '0') ++ h.toLower := by
  have hmagic : ['0', '0'] = Text.Hex.ofByte Envelope.magicByte := by decide
  apply String.toList_injective
  rw [← hspells.encode_eq, String.toList_append, String.toList_append, String.toList_ofList, hmagic,
    ← flatMap_idBytes, Text.Hex.encode, Text.Hex.encode, String.toList_ofList, String.toList_ofList,
    Envelope.write, List.flatMap_cons, List.flatMap_append, List.append_assoc, String.toList_ofList]

lemma describeEnvelope_eq (id : UInt32) (hspells : Spells h.toList payload) :
    describeEnvelope ⟨id, payload⟩ =
      line "magic:     0x00" ++ line ("schema id: " ++ Text.ofNat id.toNat) ++
        line ("payload:   " ++ Text.ofNat (h.length / 2) ++ " bytes") ++
        if h = "" then ""
        else line ("           " ++ String.ofList (h.toLower.toList.take 64)) := by
  have hmagic : "magic:     0x" ++ Text.Hex.encode [Envelope.magicByte] = "magic:     0x00" := by
    decide
  have hlength : h.length / 2 = payload.length := by
    rw [← String.length_toList, hspells.length_eq, Nat.mul_div_cancel_left _ (by decide)]
  have hempty : payload.isEmpty ↔ h = "" := by
    rw [← String.toList_eq_nil_iff, ← List.length_eq_zero_iff, hspells.length_eq,
      List.isEmpty_iff_length_eq_zero]
    omega
  have hpreview : Text.Hex.encode (payload.take previewLength) =
      String.ofList (h.toLower.toList.take 64) := by
    have htake := (hspells.take previewLength).flatMap_ofByte
    rw [Text.Hex.encode, htake, Text.toList_toLower, List.map_take]
    rfl
  simp only [describeEnvelope, hmagic, hlength, hempty, hpreview]

/-- **The two commands are inverse.** Any ID and any payload, in digits of either case with blanks
around them, make a message of the magic byte, the ID in eight digits and the payload in lower case.
The header of this message, with blanks around it or not, shows the same ID, the size of the payload
and its first bytes, up to thirty-two. -/
theorem run_header_of_encode (s : Surroundings) (id : UInt32)
    (hdigits : ∀ c ∈ h.toList, c ∈ Text.Hex.digits) (heven : Even h.length) (hpadded : Padded h t) :
    let message :=
      "00" ++ String.ofList ((Nat.toDigits 16 id.toNat).leftpad 8 '0') ++ h.toLower
    let printed := run s ["encode", "--id", Text.ofNat id.toNat, t]
    printed = { exit := 0, stdout := line message } ∧ Padded message printed.stdout ∧
    ∀ t', Padded message t' → run s ["header", t'] = {
      exit := 0
      stdout := line "magic:     0x00" ++ line ("schema id: " ++ Text.ofNat id.toNat) ++
        line ("payload:   " ++ Text.ofNat (h.length / 2) ++ " bytes") ++
        if h = "" then ""
        else line ("           " ++ String.ofList (h.toLower.toList.take 64)) } := by
  intro message printed
  obtain ⟨payload, hspells⟩ :=
    Text.Hex.exists_spells hdigits ((congrArg Even String.length_toList).mpr heven)
  have hmessage : Text.Hex.encode (Envelope.write ⟨id, payload⟩) = message := encode_write id hspells
  have hprinted : printed = { exit := 0, stdout := line message } := by
    have houtput : (Command.encode id t).output s = .ok (line message) := by
      rw [Command.output, bytes_of_padded hspells hpadded, ← hmessage]
      rfl
    simp only [printed, run, parse_encode id (head?_of_padded hdigits hpadded), houtput]
  have hline : Padded message printed.stdout := by
    rw [hprinted]
    exact padded_line message
  refine ⟨hprinted, hline, fun t' ht' => ?_⟩
  have hwritten : Spells message.toList (Envelope.write ⟨id, payload⟩) :=
    hmessage ▸ Text.Hex.spells_encode _
  have houtput : (Command.header t').output s = .ok (describeEnvelope ⟨id, payload⟩) := by
    rw [Command.output, bytes_of_padded hwritten ht']
    simp only [bind, Except.bind, Envelope.parse_write]
    rfl
  simp only [run, parse_header (head?_of_padded hwritten.mem_digits ht'), houtput,
    describeEnvelope_eq id hspells]

/-- One byte more than is shown, in digits of both cases between blanks, and no bytes at all. -/
theorem run_header_of_encode_of_long_payload :
    let h := "aBcD0123456789EFaBcD0123456789EFaBcD0123456789EFaBcD0123456789EFfF"
    let message := "00000000ababcd0123456789efabcd0123456789efabcd0123456789efabcd0123456789efff"
    let s : Surroundings := { entry? := fun _ => none }
    ((∀ c ∈ h.toList, c ∈ Text.Hex.digits) ∧ Even h.length ∧ Padded h ("\u2003" ++ h ++ "\t")) ∧
      run s ["encode", "--id", "171", "\u2003" ++ h ++ "\t"] = { stdout := line message } ∧
      run s ["header", line message] =
        { stdout := "magic:     0x00\nschema id: 171\npayload:   33 bytes\n" ++
            "           abcd0123456789efabcd0123456789efabcd0123456789efabcd0123456789ef\n" } ∧
      run s ["encode", "--id", "4294967295", ""] = { stdout := "00ffffffff\n" } ∧
      run s ["header", "00ffffffff"] =
        { stdout := "magic:     0x00\nschema id: 4294967295\npayload:   0 bytes\n" } := by
  intro h message s
  have hdigits : ∀ c ∈ h.toList, c ∈ Text.Hex.digits :=
    List.forall_iff_forall_mem.mp (by decide +kernel)
  have heven : Even h.length := by decide +kernel
  have hpadded : Padded h ("\u2003" ++ h ++ "\t") :=
    Text.padded_of_all ['\u2003'] ['\t'] (by decide +kernel)
  have hmessage : "00" ++ String.ofList ((Nat.toDigits 16 (171 : UInt32).toNat).leftpad 8 '0') ++
      h.toLower = message := by
    decide +kernel
  obtain ⟨hencode, -, hheader⟩ := run_header_of_encode s 171 hdigits heven hpadded
  rw [hmessage] at hencode hheader
  have hempty : "00" ++ String.ofList
      ((Nat.toDigits 16 (4294967295 : UInt32).toNat).leftpad 8 '0') ++ "".toLower =
        "00ffffffff" := by
    decide +kernel
  have hnone (s : String) : Padded s s :=
    Text.padded_of_all [] [] ⟨rfl, rfl, (List.append_nil _).symm⟩
  obtain ⟨hencode', -, hheader'⟩ :=
    run_header_of_encode s 4294967295 (by simp) (by decide) (hnone "")
  rw [hempty] at hencode' hheader'
  refine ⟨⟨hdigits, heven, hpadded⟩, hencode, ?_, hencode', ?_⟩
  · rw [hheader _ (padded_line message)]
    decide +kernel
  · rw [hheader' _ (hnone _)]
    decide +kernel

end SchemaRegistry.CommandLine
