import KaspaPortal.Transaction.Pskt.JsonReader
import KaspaPortal.Transaction.Pskt.Standard.SkipValue

/-!
# What the check of restricted JSON accepts

The check accepts exactly the texts of the grammar's documents that nest within the limit
and repeat no key in any object, and its loops end by themselves.

What a document means to the reader behind the check is not the subject; that is the
schema's part.
-/
namespace KaspaPortal.Guarantees
open Lib Lib.Json Transaction.Pskt

/-- One document of the grammar within the limits. -/
def CanonicalDocument (input : Bytes) : Prop :=
  ∃ document, DocumentText input document ∧ document.depth ≤ MAX_JSON_NESTING ∧
    document.KeysDistinct

/-- The check accepts exactly the canonical documents; the bound on its loops is never what
ends them. -/
theorem validateCanonicalJson_iff (input : Bytes) :
    (validateCanonicalJson input = .ok () ↔ CanonicalDocument input) ∧
      ∀ (n extra : Nat) (keys : List Bytes) (rest : Bytes),
        Cursor.arrayLoop (Cursor.value n) (rest.length + extra) rest =
            Cursor.arrayLoop (Cursor.value n) rest.length rest ∧
          Cursor.objectLoop (Cursor.value n) (rest.length + extra) keys rest =
            Cursor.objectLoop (Cursor.value n) rest.length keys rest := by
  refine ⟨validateCanonicalJson_ok, fun n extra keys rest => ⟨?_, ?_⟩⟩
  · exact Cursor.arrayLoop_fuel (Cursor.shortens_value n) extra le_rfl
  · exact Cursor.objectLoop_fuel (Cursor.shortens_value n) extra le_rfl

/-!
## Skipping agrees with the grammar

Wherever a value starts in an accepted input, the state machine that skips a value stops
exactly where the value of the grammar ends. Its own limits add only that numbers fit 64
bits. What is kept of a member with an unknown key is then that one member.
-/
open Lib Lib.Json Transaction.Pskt Transaction.Pskt.Standard

/-- A document of the input within the limits. -/
structure Parses (input : Bytes) (document : Json) : Prop where
  text : DocumentText input document
  depth_le : document.depth ≤ MAX_JSON_NESTING
  keys_distinct : document.KeysDistinct

/-- From any position whose next token starts a value of an accepted input, the skip and the
recursive reader end behind that value; the skip fails only if a number in it does not fit. -/
theorem skipValue_agrees (input : Bytes) (hvalid : validateCanonicalJson input = .ok ()) :
    (∃ document, Parses input document) ∧
      ∀ document, Parses input document →
        (∀ before text after value, Occurs input document before text after value →
          input = before ++ text ++ after ∧ ValueText text value ∧
            ∀ front w, before = front ++ w → Blank w →
              Cursor.value MAX_JSON_NESTING (w ++ text ++ after) = .ok after ∧
                skipValue (w ++ text ++ after) =
                  if value.numbersBelow (2 ^ 64) then .ok after else .error .unexpectedToken) ∧
          ∀ before text after member, OccursMember input document before text after member →
            input = before ++ text ++ after ∧ MemberText ValueText text member ∧
              ∀ front w, before = front ++ w → Blank w →
                preserveUnknown (w ++ text ++ after) =
                  if member.2.numbersBelow (2 ^ 64) then .ok (w ++ text, after)
                  else .error .unexpectedToken := by
  refine ⟨?_, fun document hparses => ⟨?_, ?_⟩⟩
  · obtain ⟨document, htext, hdepth, hkeys⟩ := validateCanonicalJson_ok.mp hvalid
    exact ⟨document, htext, hdepth, hkeys⟩
  · intro before text after value hoccurs
    obtain ⟨hinput, htext, hdepth, hkeys⟩ := hoccurs.split
    have hdepth' : value.depth ≤ MAX_JSON_NESTING := hdepth.trans hparses.depth_le
    have hstops := stops_of_occurs hoccurs
    refine ⟨hinput, htext, fun front w hbefore hw => ⟨?_, ?_⟩⟩
    · exact (Cursor.value_reads MAX_JSON_NESTING).2 w text value after hw
        ⟨htext, hdepth', hkeys hparses.keys_distinct⟩ hstops
    · exact skipValue_valueText htext hdepth' hw hstops
  · intro before text after member hoccurs
    cases hoccurs with
    | @intro before body after b text a members member hparent hmember =>
      obtain ⟨hinput, -, hdepth, -⟩ := hparent.split
      obtain ⟨hbody, htext, hmem⟩ := hmember.split
      rw [depth] at hdepth
      have hmemberDepth := membersDepth_le.mp le_rfl _ hmem
      have hlimit := hparses.depth_le
      have hstops : Cursor.Stops (a ++ [0x7d] ++ after) := by
        rw [List.append_assoc]
        exact stops_after hmember.after (stops_rBrace _)
      refine ⟨by rw [hinput, hbody]; simp, htext, fun front w hbefore hw => ?_⟩
      exact preserveUnknown_memberText htext (by omega) hw hstops

private def tagged : Bytes := ascii "\x7b\"x\": [7]\x7d"

private def taggedDocument : Json := .object [(ascii "x", .array [.number 7])]

private theorem blank_space : Blank [0x20] := by
  intro b hb
  rw [List.mem_singleton.mp hb]
  decide

private theorem plain_x : Plain (ascii "x") := by
  unfold Plain
  decide +kernel

private theorem valueText_list : ValueText (ascii "[7]") (.array [.number 7]) := by
  have hdigits : Canonical (ascii "7") := ⟨by decide +kernel, by decide +kernel, by decide +kernel⟩
  have hitem : ValueText (ascii "7") (.number 7) := .number hdigits
  have hbody : ItemsText ValueText ([] ++ ascii "7" ++ []) [.number 7] :=
    .last Blank.nil hitem Blank.nil
  exact .array hbody

private theorem memberText_x :
    MemberText ValueText (quoted (ascii "x") ++ [] ++ [0x3a] ++ [0x20] ++ ascii "[7]")
      (ascii "x", .array [.number 7]) :=
  .intro Blank.nil plain_x blank_space valueText_list

private theorem memberAt_x :
    MemberAt ValueText ([] ++ (quoted (ascii "x") ++ [] ++ [0x3a] ++ [0x20] ++ ascii "[7]") ++ [])
      [(ascii "x", .array [.number 7])] []
      (quoted (ascii "x") ++ [] ++ [0x3a] ++ [0x20] ++ ascii "[7]") []
      (ascii "x", .array [.number 7]) :=
  .last Blank.nil memberText_x Blank.nil

private theorem valueText_tagged : ValueText tagged taggedDocument :=
  .object (.last Blank.nil memberText_x Blank.nil :
    MembersText ValueText ([] ++ (quoted (ascii "x") ++ [] ++ [0x3a] ++ [0x20] ++ ascii "[7]") ++ [])
      [(ascii "x", .array [.number 7])])

private theorem parses_tagged : Parses tagged taggedDocument where
  text := ⟨[], tagged, [], rfl, Blank.nil, valueText_tagged, Blank.nil⟩
  depth_le := by decide
  keys_distinct := by
    simp [taggedDocument, KeysDistinct, MembersKeysDistinct, ItemsKeysDistinct]

theorem skipValue_agrees_tagged :
    skipValue (ascii " [7]\x7d") = .ok (ascii "\x7d") ∧
      preserveUnknown (ascii "\"x\": [7]\x7d") = .ok (ascii "\"x\": [7]", ascii "\x7d") := by
  have hroot : Occurs tagged taggedDocument [] tagged [] taggedDocument :=
    .root rfl Blank.nil valueText_tagged Blank.nil
  have hvalue := Occurs.member hroot memberAt_x Blank.nil plain_x blank_space valueText_list
  have hmember := OccursMember.intro hroot memberAt_x
  have hvalid := validateCanonicalJson_ok.mpr
    ⟨taggedDocument, parses_tagged.text, parses_tagged.depth_le, parses_tagged.keys_distinct⟩
  have h := (skipValue_agrees tagged hvalid).2 _ parses_tagged
  exact ⟨((h.1 _ _ _ _ hvalue).2.2 (ascii "\x7b\"x\":") [0x20] rfl blank_space).2,
    (h.2 _ _ _ _ hmember).2.2 (ascii "\x7b") [] rfl Blank.nil⟩

end KaspaPortal.Guarantees
