import BinaryStrings.Proofs.Numeral.Reading
import BinaryStrings.Proofs.Server.Lookup

/-!
# Addresses in text

An address is given as text, in any spelling of a natural number.  The answer of a call that finds no
string at an address shows the address in a spelling of its own, and a call with this text is the same
call again.

Main results:

- Theorem `readAddress_eq_ok_iff`: the texts that are read as an address.
- Theorem `Lookup.canPassBack_of_missing`: the address in an answer can be given in another call.
- Theorem `Lookup.address_spelled`: both, with the texts that are refused.
-/

namespace BinaryStrings

/-! ## Spelled addresses -/

variable {text : String}

/-- The texts that are read as an address are those that spell it. -/
theorem readAddress_eq_ok_iff {n : Nat} : readAddress text = .ok n ↔ Numeral.Spells text n := by
  rw [← Numeral.read_marked_eq_ok_iff, readAddress]
  cases Numeral.read .marked text with
  | error error => simp
  | ok value =>
    dsimp only
    split
    · simp
      omega
    · simp
      omega

/-- The texts that spell a negative number are refused for it. -/
theorem readAddress_eq_negative_iff : readAddress text = .error (.negative text) ↔
    ∃ value < 0, Numeral.Spells text value := by
  simp only [← Numeral.read_marked_eq_ok_iff, readAddress]
  cases Numeral.read .marked text with
  | error error => simp
  | ok value =>
    dsimp only
    split
    · simp_all
    · simp_all

/-- The texts that spell no number are refused as numerals. -/
theorem exists_readAddress_eq_numeral_iff : (∃ error, readAddress text = .error (.numeral error)) ↔
    ∀ value, ¬ Numeral.Spells text value := by
  simp only [← Numeral.read_marked_eq_ok_iff, readAddress]
  cases Numeral.read .marked text with
  | error error => simp
  | ok value =>
    dsimp only
    split
    · simp
    · simp

namespace Server.Lookup

/-! ## Passing an address back -/

/-- An answer shows the address that was asked for in a text that can be given in its place. -/
def CanPassBack (host : Host) (given members : Json.Members) : Prop :=
  ∃ (text shown : String) (n : Nat) (path minLength mode : Json),
    Tool.lookup.values given = .ok [.str text, path, minLength, mode] ∧
      readAddress text = .ok n ∧
      members.get? "address" = some (.str shown) ∧ readAddress shown = .ok n ∧
      call host (.str shown) path minLength mode = call host (.str text) path minLength mode

/-- An answer says that no entry was found. -/
def IsMissing (members : Json.Members) : Prop :=
  members.get? "found" = some (.bool false)

theorem exists_text_of_address {address : Json} {n : Nat} (h : Argument.address address = .ok n) :
    ∃ text, address = .str text ∧ readAddress text = .ok n := by
  unfold Argument.address at h
  split at h
  · rename_i text
    refine ⟨text, rfl, ?_⟩
    split at h
    · rename_i found hread
      rw [hread, Except.ok.inj h]
    · cases h
  · cases h

theorem answer_missing {report : Report} {address : Int} {members : Json.Members}
    (hanswer : answer report address = .obj members) (hmissing : IsMissing members) :
    members = missingMembers address := by
  unfold answer at hanswer
  split at hanswer
  · cases hanswer
    cases hmissing
  · exact (Json.obj.inj hanswer).symm

/-- Every answer to a call about an address that finds none shows the address. -/
theorem yields_canPassBack (host : Host) (session : Session) (given : Json.Members) :
    (Tool.lookup.course host session given).Yields fun response =>
      ∀ members, response = .obj members → IsMissing members → CanPassBack host given members := by
  refine .require fun values hvalues => ?_
  match values with
  | [address, path, minLength, mode] =>
    refine .require fun n haddress => .require fun _ _ => .require fun _ _ => .courseOf ?_
    rintro target report response hanswer members rfl hmissing
    obtain ⟨text, rfl, htext⟩ := exists_text_of_address haddress
    have hmembers := answer_missing (Except.ok.inj hanswer) hmissing
    have hshown := readAddress_hexNumber n
    refine ⟨text, Text.hexNumber n, n, path, minLength, mode, hvalues, htext, ?_, hshown, ?_⟩
    · rw [hmembers]
      rfl
    · have hsame : Argument.address (.str (Text.hexNumber n)) = Argument.address (.str text) := by
        rw [haddress, Argument.address, hshown]
      rw [call, call, hsame]
  | [] | [_] | [_, _] | [_, _, _] | _ :: _ :: _ :: _ :: _ :: _ =>
    rintro response hresult members rfl
    cases hresult

/-- An address can be given in every spelling of a natural number, and nothing else is read as an address:
what spells a negative number is refused for it, and what spells no number as a numeral.  If no string is
found at an address, the answer shows it in a text that is read as the same address, and the call with
this text is the same call. -/
theorem address_spelled :
    (∀ text n, readAddress text = .ok n ↔ Numeral.Spells text n) ∧
    (∀ text, readAddress text = .error (.negative text) ↔ ∃ value < 0, Numeral.Spells text value) ∧
    (∀ text, (∃ error, readAddress text = .error (.numeral error)) ↔
      ∀ value, ¬ Numeral.Spells text value) ∧
    (∀ n : Nat, readAddress (Text.hexNumber n) = .ok n) ∧
    ∀ host session given members,
      (Call.run session (Tool.lookup.call host given)).1 = .ok (.obj members) →
        IsMissing members → CanPassBack host given members := by
  refine ⟨fun _ _ => readAddress_eq_ok_iff, fun _ => readAddress_eq_negative_iff,
    fun _ => exists_readAddress_eq_numeral_iff, readAddress_hexNumber, ?_⟩
  intro host session given members hcall hmissing
  rw [(Tool.run_call host session .lookup given).1] at hcall
  exact (yields_canPassBack host session given).of_result hcall members rfl hmissing

/-- There is no string behind the end of the greeting, and the answer shows the address. -/
theorem address_spelled_missing :
    let given := givenOver " +0X_F_f"
    Numeral.Spells " +0X_F_f" 255 ∧
      (Call.run (Session.initial.withCache .empty) (Tool.lookup.call greetingHost given)).1 =
        .ok (.obj [("found", .bool false), ("address", .str "0xff")]) ∧
      CanPassBack greetingHost given [("found", .bool false), ("address", .str "0xff")] := by
  intro given
  have hread : readAddress " +0X_F_f" = .ok 255 := eq_ok_of_toOption (by decide +kernel)
  obtain ⟨hspells, -, -, -, hpassBack⟩ := address_spelled
  have haddress : Argument.address (.str " +0X_F_f") = .ok 255 := by
    rw [Argument.address, hread]
  have hrun := run_call (isGivenBy_givenOver haddress)
    (Page.IsSoundFor.start greetingHost .initial "blob") targetOf_greeting freshReport_greeting
  exact ⟨(hspells _ 255).1 hread, hrun, hpassBack _ _ _ _ hrun rfl⟩

end Server.Lookup

end BinaryStrings
