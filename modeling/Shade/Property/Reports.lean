import Shade.Api.ViewKey
import Shade.Library.JsonText

/-!
# Reports from their rows

The row of a report has no column for the time at which the report was generated, and instead of
the amounts that it discloses it only has whether it discloses any. The text that is signed contains
both. Hence two reports with the same row have the same text if and only if they were generated at
the same time and disclose the same amounts.
-/

namespace Shade.Api

open Text

/-! ### The text as a JSON value -/

/-- A text that is there as a JSON value. -/
def jsonOrNull : Option Text → Json
  | none => .null
  | some t => .string t

/-- The JSON value of a disclosed amount. -/
def AmountDisclosed.json (a : AmountDisclosed) : Json :=
  .object [("commitment".toList, .string a.commitment), ("amount7dp".toList, .string a.amount7dp),
    ("currency".toList, .string a.currency)]

/-- The JSON value of a report. -/
def UnsignedReport.json (r : UnsignedReport) : Json :=
  .object [("reportId".toList, .string r.reportId),
    ("userId".toList, .string r.userId),
    ("generatedAt".toList, .string r.generatedAt),
    ("timeRangeFrom".toList, jsonOrNull r.timeRangeFrom),
    ("timeRangeTo".toList, jsonOrNull r.timeRangeTo),
    ("noteCommitments".toList, .array ((sortTexts r.noteCommitments).map .string)),
    ("disclosedNullifiers".toList, .array ((sortTexts r.disclosedNullifiers).map .string)),
    ("quoteId".toList, jsonOrNull r.quoteId),
    ("policyId".toList, jsonOrNull r.policyId),
    ("anchorId".toList, jsonOrNull r.anchorId),
    ("amountsDisclosed".toList, .array ((r.amountsDisclosed.getD []).map AmountDisclosed.json)),
    ("proofLinks".toList, .array ((sortTexts r.proofLinks).map .string))]

variable (printNumber : ℚ → Text)

theorem textOrNull_eq (t : Option Text) :
  textOrNull t = (jsonOrNull t).stringify printNumber
  := by
  cases t with
  | none => rfl
  | some t => rfl

theorem array_quote_eq (ts : List Text) :
  array (ts.map quote) = (Json.array (ts.map .string)).stringify printNumber
  := by
  rw [Json.stringify, Json.stringifyItems_eq, List.map_map]
  rfl

theorem array_amounts_eq (amounts : List AmountDisclosed) :
  array (amounts.map AmountDisclosed.text)
    = (Json.array (amounts.map AmountDisclosed.json)).stringify printNumber
  := by
  rw [Json.stringify, Json.stringifyItems_eq, List.map_map]
  rfl

/-- The text that is signed is that of a JSON value. -/
theorem canonicalReportPayload_eq (r : UnsignedReport) :
  canonicalReportPayload r = r.json.stringify printNumber
  := by
  rw [canonicalReportPayload, textOrNull_eq printNumber, textOrNull_eq printNumber,
    textOrNull_eq printNumber, textOrNull_eq printNumber, textOrNull_eq printNumber,
    array_quote_eq printNumber, array_quote_eq printNumber, array_quote_eq printNumber,
    array_amounts_eq printNumber]
  rfl

theorem AmountDisclosed.json_injective :
  Function.Injective AmountDisclosed.json
  := by
  rintro ⟨c, a, u⟩ ⟨c', a', u'⟩ h
  simpa [AmountDisclosed.json] using h

/-- The text that is signed determines the time and the amounts. -/
theorem of_canonicalReportPayload_eq {r r' : UnsignedReport}
    (h : canonicalReportPayload r = canonicalReportPayload r') :
  r.generatedAt = r'.generatedAt ∧ r.amountsDisclosed.getD [] = r'.amountsDisclosed.getD []
  := by
  rw [canonicalReportPayload_eq Json.printFraction, canonicalReportPayload_eq Json.printFraction]
    at h
  have hjson := Json.stringify_injective Json.numerals_printFraction h
  simp only [UnsignedReport.json, Json.object.injEq, List.cons.injEq, Prod.mk.injEq, true_and,
    Json.string.injEq, Json.array.injEq, and_true] at hjson
  obtain ⟨-, -, htime, -, -, -, -, -, -, -, hamounts, -⟩ := hjson
  use htime, List.map_injective_iff.mpr AmountDisclosed.json_injective hamounts

/-! ### What the rows leave open -/

/-- The amounts that are disclosed for notes. -/
def disclosedAmounts (commitments : List NoteCommitmentRow) : List AmountDisclosed :=
  commitments.map fun c => ⟨c.commitment, decimal c.amountUsdc7dp, "USDC".toList⟩

/-- Of the same notes the same amounts are disclosed if they have the same amounts. -/
theorem disclosedAmounts_eq_iff {cs cs' : List NoteCommitmentRow}
    (h : cs.map NoteCommitmentRow.commitment = cs'.map NoteCommitmentRow.commitment) :
  disclosedAmounts cs = disclosedAmounts cs'
    ↔ cs.map NoteCommitmentRow.amountUsdc7dp = cs'.map NoteCommitmentRow.amountUsdc7dp
  := by
  have hzip : ∀ cs, disclosedAmounts cs = ((cs.map NoteCommitmentRow.commitment).zip
      (cs.map NoteCommitmentRow.amountUsdc7dp)).map
        fun p => ⟨p.1, decimal p.2, "USDC".toList⟩ := by
    intro cs
    rw [List.zip_map', List.map_map]
    rfl
  have hread : ∀ cs, (disclosedAmounts cs).map AmountDisclosed.amount7dp
      = (cs.map NoteCommitmentRow.amountUsdc7dp).map decimal := by
    intro cs
    rw [disclosedAmounts, List.map_map, List.map_map]
    rfl
  constructor
  · intro heq
    apply List.map_injective_iff.mpr Json.decimal_injective
    rw [← hread, ← hread, heq]
  · intro heq
    rw [hzip, hzip, h, heq]

theorem reportInput_amountsDisclosed (db : Disclosures) (userId : Text)
    (body : ViewKeyReportBody) :
  (reportInput db userId body).amountsDisclosed.getD []
    = if body.discloseAmounts then
        disclosedAmounts (db.getOwnedNoteCommitments userId body.noteCommitments)
      else
        []
  := by
  change (if body.discloseAmounts then some _ else none : Option _).getD [] = _
  split
  · rfl
  · rfl

section

variable {kp kp' : ServiceKey} {r r' : ReportRequest}

/-- Requests whose rows agree disclose the same amounts if the notes have the same amounts. -/
theorem amountsDisclosed_eq_iff (h : (r.row kp).Agrees (r'.row kp')) :
  (r.signed kp).amountsDisclosed.getD [] = (r'.signed kp').amountsDisclosed.getD []
    ↔ (r.body.discloseAmounts = true → r.amounts = r'.amounts)
  := by
  have hflag : r.body.discloseAmounts = r'.body.discloseAmounts :=
    congrArg ViewKeyReportRow.amountDisclosed h
  have hnotes := congrArg ViewKeyReportRow.noteCommitments h
  change (reportInput r.db r.userId r.body).amountsDisclosed.getD []
    = (reportInput r'.db r'.userId r'.body).amountsDisclosed.getD [] ↔ _
  rw [reportInput_amountsDisclosed, reportInput_amountsDisclosed, ← hflag]
  split
  · case isTrue hdisclose =>
      rw [disclosedAmounts_eq_iff hnotes]
      constructor
      · intro heq _
        apply heq
      · intro heq
        apply heq hdisclose
  · case isFalse hnot =>
      constructor
      · intro _ hdisclose
        contradiction
      · intro _
        rfl

/-- The text that is signed is determined by the row, the time and the amounts. -/
theorem canonicalReportPayload_congr (h : (r.row kp).Agrees (r'.row kp'))
    (htime : r.generatedAt = r'.generatedAt)
    (hamounts : (r.signed kp).amountsDisclosed.getD [] = (r'.signed kp').amountsDisclosed.getD []) :
  canonicalReportPayload (r.signed kp).toUnsignedReport
    = canonicalReportPayload (r'.signed kp').toUnsignedReport
  := by
  have hid : (r.signed kp).reportId = (r'.signed kp').reportId :=
    congrArg ViewKeyReportRow.reportId h
  have huser : (r.signed kp).userId = (r'.signed kp').userId :=
    congrArg ViewKeyReportRow.userId h
  have hgenerated : (r.signed kp).generatedAt = (r'.signed kp').generatedAt := htime
  have hfrom : (r.signed kp).timeRangeFrom = (r'.signed kp').timeRangeFrom :=
    congrArg ViewKeyReportRow.timeRangeFrom h
  have hto : (r.signed kp).timeRangeTo = (r'.signed kp').timeRangeTo :=
    congrArg ViewKeyReportRow.timeRangeTo h
  have hnotes : (r.signed kp).noteCommitments = (r'.signed kp').noteCommitments :=
    congrArg ViewKeyReportRow.noteCommitments h
  have hnullifiers : (r.signed kp).disclosedNullifiers = (r'.signed kp').disclosedNullifiers :=
    congrArg ViewKeyReportRow.disclosedNullifiers h
  have hquote : (r.signed kp).quoteId = (r'.signed kp').quoteId :=
    congrArg ViewKeyReportRow.quoteId h
  have hpolicy : (r.signed kp).policyId = (r'.signed kp').policyId :=
    congrArg ViewKeyReportRow.policyId h
  have hanchor : (r.signed kp).anchorId = (r'.signed kp').anchorId :=
    congrArg ViewKeyReportRow.anchorId h
  have hlinks : (r.signed kp).proofLinks = (r'.signed kp').proofLinks :=
    congrArg ViewKeyReportRow.proofLinks h
  rw [canonicalReportPayload, canonicalReportPayload, hid, huser, hgenerated, hfrom, hto, hnotes,
    hnullifiers, hquote, hpolicy, hanchor, hamounts, hlinks]

end

/-! ### Determined texts -/

/-- Two requests whose rows agree sign the same text if and only if they are made at the same time
and the disclosed notes have the same amounts. -/
theorem payload_eq_iff (kp kp' : ServiceKey) (r r' : ReportRequest)
    (h : (r.row kp).Agrees (r'.row kp')) :
  canonicalReportPayload (r.signed kp).toUnsignedReport
      = canonicalReportPayload (r'.signed kp').toUnsignedReport
    ↔ r.generatedAt = r'.generatedAt ∧ (r.body.discloseAmounts = true → r.amounts = r'.amounts)
  := by
  rw [← amountsDisclosed_eq_iff h]
  constructor
  · apply of_canonicalReportPayload_eq
  · rintro ⟨htime, hamounts⟩
    apply canonicalReportPayload_congr h htime hamounts

/-- A body that selects one note and discloses its amount. -/
def noteBody : ViewKeyReportBody where
  settlementIds := []
  noteCommitments := ["n".toList]
  timeRangeFrom := none
  timeRangeTo := none
  quoteId := none
  policyId := none
  anchorId := none
  discloseAmounts := true
  attachmentRecipientPubkey := none

/-- A request at a time when the note has an amount. -/
def noteRequest (generatedAt : Text) (amountUsdc7dp : ℤ) : ReportRequest where
  db := ⟨[], [⟨"u".toList, "n".toList, "p".toList, amountUsdc7dp⟩], []⟩
  userId := "u".toList
  body := noteBody
  generatedAt := generatedAt
  reportId := "r".toList
  encryptReportAttachment _ _ := ⟨[], [], []⟩

/-- A key with a signature that is the digest itself. -/
def plainKey : ServiceKey := ⟨[], id⟩

theorem noteRequest_agrees (t t' : Text) (a a' : ℤ) :
  ((noteRequest t a).row plainKey).Agrees ((noteRequest t' a').row plainKey)
  := by
  rfl

/-- Two requests made at the same time for a note of the same amount. -/
theorem payload_eq_iff_note :
  canonicalReportPayload ((noteRequest "2026-07-01T00:00:00.000Z".toList 5).signed
      plainKey).toUnsignedReport
    = canonicalReportPayload ((noteRequest "2026-07-01T00:00:00.000Z".toList 5).signed
      ⟨[], List.reverse⟩).toUnsignedReport
  := by
  apply (payload_eq_iff plainKey ⟨[], List.reverse⟩ _ _ _).mpr
  · use rfl, fun _ => rfl
  · rfl

/-- The text of a request of a note. -/
def notePayload (generatedAt : Text) (amountUsdc7dp : ℤ) : Text :=
  canonicalReportPayload ((noteRequest generatedAt amountUsdc7dp).signed plainKey).toUnsignedReport

/-- The rows agree at two times and for two amounts of the note, but the texts do not. -/
theorem payload_not_determined :
  (((noteRequest "2026-07-01T00:00:00.000Z".toList 5).row plainKey).Agrees
      ((noteRequest "2026-07-01T00:00:01.000Z".toList 5).row plainKey)
    ∧ notePayload "2026-07-01T00:00:00.000Z".toList 5
      ≠ notePayload "2026-07-01T00:00:01.000Z".toList 5)
  ∧ ((noteRequest "2026-07-01T00:00:00.000Z".toList 5).row plainKey).Agrees
      ((noteRequest "2026-07-01T00:00:00.000Z".toList 6).row plainKey)
    ∧ notePayload "2026-07-01T00:00:00.000Z".toList 5
      ≠ notePayload "2026-07-01T00:00:00.000Z".toList 6
  := by
  constructor
  · use noteRequest_agrees _ _ _ _
    intro h
    obtain ⟨htime, -⟩ := of_canonicalReportPayload_eq h
    revert htime
    decide
  · use noteRequest_agrees _ _ _ _
    intro h
    obtain ⟨-, hamounts⟩ := of_canonicalReportPayload_eq h
    have hagrees := noteRequest_agrees "2026-07-01T00:00:00.000Z".toList
      "2026-07-01T00:00:00.000Z".toList 5 6
    have hsame := (amountsDisclosed_eq_iff hagrees).mp hamounts rfl
    revert hsame
    decide

end Shade.Api
