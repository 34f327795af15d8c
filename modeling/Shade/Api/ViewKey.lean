import Shade.Api.Ids

/-!
# Reports of the view key

The route by which a user discloses settlements and notes. It selects the rows that the user owns,
assembles a report from them, signs the text of the report with the key of the service, and inserts
a row for it. The texts of the body are as its schema returns them. The clock, the identifier of
the report, the key and the encryption of the attachment are given.
-/

namespace Shade.Api

open Text

/-! ### Reports -/

/-- The amount of a note that a report discloses. -/
structure AmountDisclosed where
  commitment : Text
  amount7dp : Text
  currency : Text
deriving DecidableEq

/-- What a report is about. -/
structure ViewKeyReportInput where
  userId : Text
  timeRangeFrom : Option Text
  timeRangeTo : Option Text
  noteCommitments : List Text
  disclosedNullifiers : List Text
  quoteId : Option Text
  policyId : Option Text
  anchorId : Option Text
  amountsDisclosed : Option (List AmountDisclosed)
  proofLinks : List Text
deriving DecidableEq

/-- A report before it is signed. -/
structure UnsignedReport extends ViewKeyReportInput where
  reportId : Text
  generatedAt : Text
deriving DecidableEq

/-- A report with its signature. -/
structure SignedViewKeyReport extends UnsignedReport where
  servicePubkeyHex : Text
  serviceSignatureHex : Text
deriving DecidableEq

/-- A text that is there as a JSON string. -/
def textOrNull : Option Text → Text
  | none => "null".toList
  | some t => quote t

/-- Texts in the order of their code units. -/
def sortTexts (ts : List Text) : List Text := ts.mergeSort fun t t' => decide (NotAfter t t')

/-- The text of a disclosed amount. -/
def AmountDisclosed.text (a : AmountDisclosed) : Text :=
  object [("commitment".toList, quote a.commitment), ("amount7dp".toList, quote a.amount7dp),
    ("currency".toList, quote a.currency)]

/-- The text that is signed. -/
def canonicalReportPayload (r : UnsignedReport) : Text :=
  object [("reportId".toList, quote r.reportId),
    ("userId".toList, quote r.userId),
    ("generatedAt".toList, quote r.generatedAt),
    ("timeRangeFrom".toList, textOrNull r.timeRangeFrom),
    ("timeRangeTo".toList, textOrNull r.timeRangeTo),
    ("noteCommitments".toList, array ((sortTexts r.noteCommitments).map quote)),
    ("disclosedNullifiers".toList, array ((sortTexts r.disclosedNullifiers).map quote)),
    ("quoteId".toList, textOrNull r.quoteId),
    ("policyId".toList, textOrNull r.policyId),
    ("anchorId".toList, textOrNull r.anchorId),
    ("amountsDisclosed".toList, array ((r.amountsDisclosed.getD []).map AmountDisclosed.text)),
    ("proofLinks".toList, array ((sortTexts r.proofLinks).map quote))]

/-- The key of the service. -/
structure ServiceKey where
  publicKey : Bytes
  sign : Bytes → Bytes

/-- The hash of the text that is signed. -/
def reportDigest (r : UnsignedReport) : Bytes := (sha256 (utf8 (canonicalReportPayload r))).toBytes

/-- Sign a report at a time. -/
def signViewKeyReport (kp : ServiceKey) (generatedAt : Text) (input : ViewKeyReportInput)
    (reportId : Text) :
    SignedViewKeyReport :=
  let unsigned : UnsignedReport := { input with reportId := reportId, generatedAt := generatedAt }
  { unsigned with
    servicePubkeyHex := hexBytes kp.publicKey
    serviceSignatureHex := hexBytes (kp.sign (reportDigest unsigned)) }

/-! ### Tables -/

/-- A row of the table `settlements`. -/
structure SettlementRow where
  userId : Text
  settlementId : Text
  quoteId : Text
  nullifier : Text
  stellarTxHash : Option Text
deriving DecidableEq

/-- A row of the table `note_commitments`. -/
structure NoteCommitmentRow where
  userId : Text
  commitment : Text
  policyId : Text
  amountUsdc7dp : ℤ
deriving DecidableEq

/-- A row of the table `anchor_payouts`. -/
structure AnchorPayoutRow where
  settlementId : Text
  anchorTransactionId : Option Text
deriving DecidableEq

/-- An encrypted attachment. -/
structure Attachment where
  ciphertext : Text
  nonce : Text
  senderPubkey : Text
deriving DecidableEq

/-- The values for a row of the table `view_key_reports`. -/
structure ViewKeyReportRow where
  reportId : Text
  userId : Text
  timeRangeFrom : Option Text
  timeRangeTo : Option Text
  noteCommitments : List Text
  disclosedNullifiers : List Text
  quoteId : Option Text
  policyId : Option Text
  anchorId : Option Text
  amountDisclosed : Bool
  proofLinks : List Text
  servicePubkey : Text
  serviceSignature : Text
  encryptedAttachment : Option Attachment
deriving DecidableEq

/-- The tables that the route reads. -/
structure Disclosures where
  settlements : List SettlementRow
  noteCommitments : List NoteCommitmentRow
  anchorPayouts : List AnchorPayoutRow

/-- The settlements of the user among those with the given identifiers. -/
def Disclosures.getOwnedSettlements (db : Disclosures) (userId : Text)
    (settlementIds : List Text) :
    List SettlementRow :=
  db.settlements.filter fun s => s.userId = userId && settlementIds.any fun id => id = s.settlementId

/-- The notes of the user among those with the given commitments. -/
def Disclosures.getOwnedNoteCommitments (db : Disclosures) (userId : Text)
    (commitments : List Text) :
    List NoteCommitmentRow :=
  db.noteCommitments.filter fun c => c.userId = userId && commitments.any fun t => t = c.commitment

/-- The transactions of the anchor for the given settlements. -/
def Disclosures.getAnchorIdsForSettlements (db : Disclosures) (settlementIds : List Text) :
    List Text :=
  ((db.anchorPayouts.filter fun p => settlementIds.any fun id => id = p.settlementId).filterMap
    AnchorPayoutRow.anchorTransactionId).dedup

/-! ### The route -/

/-- The body of a request, as its schema returns it. -/
structure ViewKeyReportBody where
  settlementIds : List Text
  noteCommitments : List Text
  timeRangeFrom : Option Text
  timeRangeTo : Option Text
  quoteId : Option Text
  policyId : Option Text
  anchorId : Option Text
  discloseAmounts : Bool
  attachmentRecipientPubkey : Option Text

/-- The address of a transaction in the explorer. -/
def proofLink (hash : Text) : Text :=
  "https://stellar.expert/explorer/testnet/tx/".toList ++ hash

/-- The report that the route assembles. -/
def reportInput (db : Disclosures) (userId : Text) (body : ViewKeyReportBody) :
    ViewKeyReportInput :=
  let settlements := db.getOwnedSettlements userId body.settlementIds
  let commitments := db.getOwnedNoteCommitments userId body.noteCommitments
  let anchorIds :=
    match body.anchorId with
    | some id => [id]
    | none => db.getAnchorIdsForSettlements (settlements.map SettlementRow.settlementId)
  { userId := userId
    timeRangeFrom := body.timeRangeFrom
    timeRangeTo := body.timeRangeTo
    noteCommitments := commitments.map NoteCommitmentRow.commitment
    disclosedNullifiers :=
      (settlements.map SettlementRow.nullifier).filter fun nullifier => nullifier ≠ []
    quoteId := body.quoteId.or (settlements.head?.map SettlementRow.quoteId)
    policyId := body.policyId.or (commitments.head?.map NoteCommitmentRow.policyId)
    anchorId := anchorIds.head?
    amountsDisclosed :=
      if body.discloseAmounts then
        some (commitments.map fun c => ⟨c.commitment, decimal c.amountUsdc7dp, "USDC".toList⟩)
      else
        none
    proofLinks :=
      ((settlements.filterMap SettlementRow.stellarTxHash).filter fun hash => hash ≠ []).map
        proofLink }

/-- The values that the route hands over for the row of a signed report. -/
def reportRow (body : ViewKeyReportBody) (signed : SignedViewKeyReport)
    (encryptedAttachment : Option Attachment) :
    ViewKeyReportRow where
  reportId := signed.reportId
  userId := signed.userId
  timeRangeFrom := body.timeRangeFrom
  timeRangeTo := body.timeRangeTo
  noteCommitments := signed.noteCommitments
  disclosedNullifiers := signed.disclosedNullifiers
  quoteId := signed.quoteId
  policyId := signed.policyId
  anchorId := signed.anchorId
  amountDisclosed := body.discloseAmounts
  proofLinks := signed.proofLinks
  servicePubkey := signed.servicePubkeyHex
  serviceSignature := signed.serviceSignatureHex
  encryptedAttachment := encryptedAttachment

/-- A request to the route, with what the user owns, the time and the identifier of the report, and
how the attachment is encrypted. -/
structure ReportRequest where
  db : Disclosures
  userId : Text
  body : ViewKeyReportBody
  generatedAt : Text
  reportId : Text
  encryptReportAttachment : SignedViewKeyReport → Text → Attachment

/-- The report of a request. -/
def ReportRequest.signed (kp : ServiceKey) (r : ReportRequest) : SignedViewKeyReport :=
  signViewKeyReport kp r.generatedAt (reportInput r.db r.userId r.body) r.reportId

/-- The values that the route hands over for the row of a request. -/
def ReportRequest.row (kp : ServiceKey) (r : ReportRequest) : ViewKeyReportRow :=
  reportRow r.body (r.signed kp)
    (r.body.attachmentRecipientPubkey.map (r.encryptReportAttachment (r.signed kp)))

/-- The values that are inserted for a request. Without a key the service is unavailable. -/
def ReportRequest.inserted (key : Option ServiceKey) (r : ReportRequest) :
    Option ViewKeyReportRow :=
  key.map fun kp => r.row kp

/-- The amounts of the notes of the user that a request selects. -/
def ReportRequest.amounts (r : ReportRequest) : List ℤ :=
  (r.db.getOwnedNoteCommitments r.userId r.body.noteCommitments).map
    NoteCommitmentRow.amountUsdc7dp

/-- Two rows agree in every column except the signature and the attachment. -/
def ViewKeyReportRow.Agrees (row row' : ViewKeyReportRow) : Prop :=
  { row with
    serviceSignature := row'.serviceSignature
    encryptedAttachment := row'.encryptedAttachment } = row'

end Shade.Api
