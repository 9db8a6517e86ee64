/-
This file puts queries between the commands of a signing session, and asks whether the
session notices.

A `Round` is a signing command, the queries the host sends before it and the presses that
answer it. `queries_go_unnoticed` compares the replies of the rounds with those of the same
rounds without their queries. Each suspension point leaves nothing readable that a query
changes, but for one thing: the first four words of the stored path go into the keys at
the time of signing, and a query may have changed them since the session began.
-/

import LedgerNano.Delivery
import LedgerNano.Queries
import LedgerNano.Twins

namespace LedgerNano

/-! ### The end of the chunk -/

/-- The chunk of a device ends where a command of that length does. -/
structure Device.HasChunk (rx : Nat) (device : Device) : Prop where
  place : device.signTxnContext.dataBuffer + device.signTxnContext.dataLength = rx
  small : device.signTxnContext.dataLength < 2 ^ 16

/-- The place and the length of the chunk are as before. -/
structure KeepsChunk (before after : SignTxnContext) : Prop where
  dataBuffer : after.dataBuffer = before.dataBuffer
  dataLength : after.dataLength = before.dataLength

section Chunk

variable {rx : Nat} {sdk : Sdk} {device after : Device} {code : Option Nat}

theorem KeepsChunk.refl (ctx : SignTxnContext) : KeepsChunk ctx ctx :=
  ⟨rfl, rfl⟩

theorem Device.HasChunk.keep (whole : device.HasChunk rx)
    (keeps : KeepsChunk device.signTxnContext after.signTxnContext) : after.HasChunk rx where
  place := by rw [keeps.dataBuffer, keeps.dataLength, whole.place]
  small := by rw [keeps.dataLength]; exact whole.small

theorem signInputs_keepsChunk (remaining : Nat) {i : Nat} {device : Device}
    (went : signInputs sdk remaining i device = .ok (code, after)) :
    KeepsChunk device.signTxnContext after.signTxnContext := by
  induction remaining generalizing i device with
  | zero =>
    cases went
    exact KeepsChunk.refl _
  | succ remaining inductionHypothesis =>
    by_cases inside : i < maxInputs
    · rw [signInputs_succ sdk remaining device inside] at went
      split at went
      · cases went
        exact ⟨rfl, rfl⟩
      · have rest := inductionHypothesis went
        exact ⟨rest.dataBuffer, rest.dataLength⟩
    · rw [signInputs, dif_neg inside] at went
      cases went

theorem retSigs_keepsChunk (turns : Nat) {device : Device}
    (went : retSigs turns device = .ok (code, after)) :
    KeepsChunk device.signTxnContext after.signTxnContext := by
  induction turns generalizing device with
  | zero => cases went
  | succ turns inductionHypothesis =>
    rw [retSigs] at went
    simp only at went
    split at went
    · cases went
      exact ⟨rfl, rfl⟩
    split at went
    · cases went
      exact KeepsChunk.refl _
    split at went
    · have rest := inductionHypothesis went
      exact ⟨rest.dataBuffer, rest.dataLength⟩
    · cases went

theorem computeSigs_keepsChunk (went : computeSigs sdk device = .ok (code, after)) :
    KeepsChunk device.signTxnContext after.signTxnContext := by
  unfold computeSigs at went
  simp only at went
  split at went
  · cases went
  · rename_i signed
    cases went
    have looped := signInputs_keepsChunk _ signed
    exact ⟨looped.dataBuffer, looped.dataLength⟩
  · rename_i signed
    have looped := signInputs_keepsChunk _ signed
    have returned := retSigs_keepsChunk 4 went
    exact ⟨returned.dataBuffer.trans looped.dataBuffer,
      returned.dataLength.trans looped.dataLength⟩

/-- A reading state moves the start of the chunk, and leaves its end. -/
theorem hasChunk_of_adopted {read : Except Fault Reading} (whole : device.HasChunk rx)
    (took : device.adopt <$> read = .ok (code, after))
    (follows : ∀ reading, read = .ok reading → reading.Follows device.signTxnContext) :
    after.HasChunk rx := by
  obtain ⟨reading, same, both⟩ := map_ok took
  have ends := (follows reading same).chunk whole.small
  have context := (adopt_context device reading).1
  rw [← congrArg Prod.snd both] at context
  rw [← context] at ends
  exact ⟨ends.place.trans whole.place, ends.small⟩

theorem txnNextElemPass_hasChunk (whole : device.HasChunk rx)
    (went : txnNextElemPass sdk device = .ok (code, after)) : after.HasChunk rx := by
  rw [txnNextElemPass] at went
  cases state : device.signTxnContext.txnState with
  | startIn =>
    simp only [state] at went
    exact hasChunk_of_adopted whole went fun _ => txnStartIn_follows
  | txnIn =>
    simp only [state] at went
    exact hasChunk_of_adopted whole went fun _ => txnIn_follows state
  | startOut =>
    simp only [state] at went
    exact hasChunk_of_adopted whole went fun _ => txnStartOut_follows
  | txnOut =>
    simp only [state] at went
    exact hasChunk_of_adopted whole went fun _ => txnOut_follows
  | computeSigs =>
    simp only [state] at went
    exact whole.keep (computeSigs_keepsChunk went)
  | retSigs =>
    simp only [state] at went
    exact whole.keep (retSigs_keepsChunk 4 went)

/-- A call of the parser leaves the end of the chunk where it is. -/
theorem txnNextElem_hasChunk {code : Nat} (whole : device.HasChunk rx)
    (went : txnNextElem sdk device = .ok (code, after)) : after.HasChunk rx :=
  txnNextElem_keeps (fun _ _ held passed => txnNextElemPass_hasChunk held passed) whole went

theorem CommandResult.keepsChunk {code : Nat} (goes : CommandResult sdk device code after) :
    KeepsChunk device.signTxnContext after.signTxnContext where
  dataBuffer := by rw [goes.frames]
  dataLength := by rw [goes.frames]

theorem PressResult.keepsChunk {code : Nat} (goes : PressResult sdk device code after) :
    KeepsChunk device.signTxnContext after.signTxnContext where
  dataBuffer := by rw [goes.frames]
  dataLength := by rw [goes.frames]

theorem pressed_keepsChunk (device : Device) :
    KeepsChunk device.signTxnContext device.pressed.signTxnContext := by
  unfold Device.pressed startSession
  split <;> exact ⟨rfl, rfl⟩

/-- An input that is no command leaves the end of the chunk where it is. -/
theorem step_hasChunk {input : Input} (press : ∀ apdu, input ≠ .apdu apdu)
    (whole : device.HasChunk rx) (stepped : step sdk device input = .ok after) :
    after.HasChunk rx := by
  cases step_move sdk device input with
  | answered apdu command => exact absurd command (press apdu)
  | opened apdu command => exact absurd command (press apdu)
  | refused apdu command => exact absurd command (press apdu)
  | waits apdu command => exact absurd command (press apdu)
  | resumed apdu command => exact absurd command (press apdu)
  | cancelled left screen went =>
    rw [stepped] at went
    cases went
    exact whole.keep ⟨rfl, rfl⟩
  | pressed button pressed right screen went =>
    rw [stepped] at went
    obtain ⟨code, called, resumed, goes⟩ := resumeByPress_result went.symm
    exact (txnNextElem_hasChunk (whole.keep (pressed_keepsChunk device)) resumed).keep
      goes.keepsChunk
  | shows screen elsewhere other went =>
    rw [stepped] at went
    cases went
    exact whole.keep (KeepsChunk.refl _)

end Chunk

/-! ### Rounds -/

/-- The command is one of the four queries, with any data. -/
def Apdu.IsQuery (apdu : Apdu) : Prop :=
  2 ≤ apdu.bytes.length ∧ byteAt apdu.bytes 0 = 0x80 ∧
    byteAt apdu.bytes 1 ∈ [0x01, 0x02, 0x04, 0x08]

instance (apdu : Apdu) : Decidable apdu.IsQuery :=
  inferInstanceAs (Decidable (_ ∧ _ ∧ _))

/-- A signing command, after the queries the host sends before it and with the presses that answer
it. -/
structure Round where
  queries : List Apdu
  p1 : Byte
  data : Bytes
  fits : data.length ≤ 255
  presses : List Input
  areQueries : ∀ query ∈ queries, query.IsQuery
  noCommand : ∀ input ∈ presses, ∀ apdu, input ≠ .apdu apdu

namespace Round

/-- The signing command. -/
def command (round : Round) : Apdu :=
  signApdu round.p1 round.data round.fits

/-- The inputs of the session itself. -/
def own (round : Round) : List Input :=
  .apdu round.command :: round.presses

def inputs (round : Round) : List Input :=
  round.queries.map .apdu ++ round.own

/-- The round without its queries. -/
def plain (round : Round) : Round :=
  { round with queries := [], areQueries := fun _ member => absurd member List.not_mem_nil }

end Round

/-- The replies among some events, the oldest first. -/
def repliesIn (events : List Event) : List Bytes :=
  events.reverse.filterMap fun
    | .reply bytes => some bytes
    | _ => none

/-- The replies to the signing commands of a session, round by round. -/
def sessionReplies (sdk : Sdk) : Device → List Round → Except Fault (List (List Bytes))
  | _, [] => .ok []
  | device, round :: rest =>
    match run sdk device (round.queries.map .apdu) with
    | .error fault => .error fault
    | .ok ready =>
      match run sdk ready round.own with
      | .error fault => .error fault
      | .ok answered =>
        List.cons (repliesIn (ready.since answered)) <$> sessionReplies sdk answered rest

/-- A call of the parser that signs does so under a path with these first words. -/
def Device.SignsUnder (words : List Nat) (called : Device) : Prop :=
  called.signTxnContext.txnState = .computeSigs →
    called.getPublicKeyContext.bip44Path.read 0 4 = words

/-- An inner hash that a call makes ready is the start of an answer, or has received bytes behind
it. -/
def Device.HashFirst (sdk : Sdk) (called : Device) : Prop :=
  match txnNextElem sdk called with
  | .ok (code, after) => code = txnReady → after.tx = 0 ∨ after.tx + sha256HashLen ≤
      after.signTxnContext.dataBuffer + after.signTxnContext.dataLength
  | .error _ => True

/-- What is asked of an input so that queries go unnoticed: the answer to a query fits behind what
an earlier one left, and what is signed is signed under a path with the given first words. -/
def Device.Undisturbed (sdk : Sdk) (words : List Nat) (device : Device) : Input → Prop
  | .apdu apdu =>
    if device.AsksToSign apdu then
      ∀ called ∈ device.resumedBy (.apdu apdu), called.SignsUnder words
    else
      device.tx + (answerOf (device.outcome sdk apdu)).2.length + 2 ≤ apduBufferLen
  | .button button =>
    ∀ called ∈ device.resumedBy (.button button), called.SignsUnder words ∧ called.HashFirst sdk
  | .addressScreen => True

instance (words : List Nat) (called : Device) : Decidable (called.SignsUnder words) :=
  inferInstanceAs (Decidable (_ → _))

instance (sdk : Sdk) (called : Device) : Decidable (called.HashFirst sdk) := by
  unfold Device.HashFirst
  split <;> infer_instance

instance (sdk : Sdk) (words : List Nat) (device : Device) :
    ∀ input, Decidable (device.Undisturbed sdk words input)
  | .apdu _ => inferInstanceAs (Decidable (ite _ _ _))
  | .button _ => inferInstanceAs (Decidable (∀ called ∈ _, _))
  | .addressScreen => isTrue trivial

section Rounds

variable {sdk : Sdk} {words : List Nat} {first second : Device}

/-- Devices that differ in the transport buffer, the stored keys, the length of an unsent answer and
their logs; the second stores a path with these first words. -/
inductive Apart (words : List Nat) (first : Device) : Device → Prop
  | intro (keys : GetPublicKeyContext) (apduBuffer : Cells Byte 260) (tx : Nat) (log : List Event)
      (kept : keys.bip44Path.read 0 4 = words) :
    Apart words first { first with getPublicKeyContext := keys, apduBuffer, tx, log }

theorem asks_of_query {apdu : Apdu} (device : Device) (query : apdu.IsQuery) :
    ¬ device.AsksToSign apdu := by
  obtain ⟨long, _, instruction⟩ := query
  intro asked
  rw [((asksToSign_iff device long).mp asked).2] at instruction
  exact absurd instruction (by decide)

/-- A query leaves what the session is about. -/
theorem query_apart {apdu : Apdu} (apart : Apart words first second) (query : apdu.IsQuery)
    (allowed : first.Undisturbed sdk words (.apdu apdu)) :
    ∃ ready, step sdk first (.apdu apdu) = .ok ready ∧ Apart words ready second := by
  have other := asks_of_query first query
  obtain ⟨context, derived, went, _⟩ := step_answers sdk other
  have fits : (((first.receive apdu).used context derived).answer
      (answerOf (first.outcome sdk apdu)).2).tx + 2 ≤ apduBufferLen := by
    rw [Device.Undisturbed, if_neg other] at allowed
    exact allowed
  rw [sendStatus, ioExchangeWithCode_eq, if_pos fits] at went
  refine ⟨_, went, ?_⟩
  obtain ⟨keys, apduBuffer, tx, log, kept⟩ := apart
  exact Apart.intro keys apduBuffer tx log kept

theorem queries_apart {queries : List Apdu} (apart : Apart words first second)
    (areQueries : ∀ query ∈ queries, query.IsQuery)
    (allowed : Runs.Along (step sdk) (Device.Undisturbed sdk words) first
      (queries.map Input.apdu)) :
    ∃ ready, run sdk first (queries.map .apdu) = .ok ready ∧ Apart words ready second := by
  induction queries generalizing first with
  | nil => exact ⟨first, rfl, apart⟩
  | cons query rest inductionHypothesis =>
    obtain ⟨isQuery, others⟩ := List.forall_mem_cons.mp areQueries
    obtain ⟨here, later⟩ := Runs.along_cons.mp allowed
    obtain ⟨next, stepped, left⟩ := query_apart apart isQuery here
    obtain ⟨ready, ran, last⟩ := inductionHypothesis left others (later next stepped)
    exact ⟨ready, (Runs.run_cons_ok stepped _).trans ran, last⟩

/-- The likeness of a round: the logs begin anew, and the second device stores a path with these
first words. -/
def Likeness.round (words : List Nat) (pastFirst pastSecond : List Event) : Likeness where
  keys _ other := other.bip44Path.read 0 4 = words
  pastFirst := pastFirst
  pastSecond := pastSecond
  patch kept _ same := same.trans kept

theorem Apart.kin (apart : Apart words first second) :
    Kin (Likeness.round words first.log second.log) first second := by
  obtain ⟨keys, apduBuffer, tx, log, kept⟩ := apart
  exact Kin.intro keys apduBuffer tx log kept ⟨[], rfl, rfl⟩

theorem Twin.apart {limit : Nat} {pastFirst pastSecond : List Event}
    (twin : Twin (Likeness.round words pastFirst pastSecond) limit first second) :
    Apart words first second := by
  obtain ⟨keys, apduBuffer, log, kept, _, _⟩ := twin
  exact Apart.intro keys apduBuffer first.tx log kept

/-- The chunk of a loaded command is its data. -/
theorem loaded_hasChunk (device : Device) (round : Round) :
    (device.loaded round.command).HasChunk round.command.bytes.length := by
  have length : round.command.bytes.length = 5 + round.data.length := List.length_append
  have header : device.header round.command 4 = round.data.length := by
    rw [header_eq _ _ _ (by omega)]
    exact Nat.mod_eq_of_lt (Nat.lt_succ_of_le round.fits)
  constructor
  · show 5 + device.header round.command 4 = _
    rw [header, length]
  · show device.header round.command 4 < 2 ^ 16
    have fits := round.fits
    omega

theorem callReads_of_chunk {rx : Nat} {called : Device} (whole : called.HasChunk rx) :
    called.CallReads sdk rx :=
  readsReceived_of_chunk _ (le_of_eq whole.place) whole.small

/-- A signing command whose data is a chunk leaves the end of the chunk where it is. -/
theorem command_hasChunk {round : Round} {after : Device}
    (stepped : step sdk first (.apdu round.command) = .ok after) :
    after.HasChunk round.command.bytes.length := by
  have whole := loaded_hasChunk first round
  have asked := (asksToSign_signApdu first round.p1 round.data round.fits).1
  have ofSame : ∀ command, Input.apdu round.command = .apdu command →
      (first.loaded command).HasChunk round.command.bytes.length := by
    rintro command same
    cases same
    exact whole
  cases step_move sdk first (.apdu round.command) with
  | answered apdu command other =>
    cases command
    exact absurd asked other
  | opened apdu command _ _ _ went =>
    cases went.symm.trans stepped
    exact (ofSame apdu command).keep ⟨rfl, rfl⟩
  | refused apdu command _ _ went =>
    cases went.symm.trans stepped
    exact (ofSame apdu command).keep ⟨rfl, rfl⟩
  | waits apdu command _ _ _ _ went =>
    cases went.symm.trans stepped
    exact (ofSame apdu command).keep ⟨rfl, rfl⟩
  | resumed apdu command _ _ _ _ went =>
    obtain ⟨code, called, answered, resumed, goes, rfl⟩ :=
      resumeByCommand_result (went.symm.trans stepped)
    exact (txnNextElem_hasChunk (ofSame apdu command) resumed).keep goes.keepsChunk
  | cancelled press => cases press
  | pressed button press => cases press
  | shows screen elsewhere =>
    rcases elsewhere with press | ⟨button, press, _⟩
    · cases press
    · cases press

theorem resumedBy_keys {device called : Device} {input : Input}
    (calls : called ∈ device.resumedBy input) :
    called.getPublicKeyContext = device.getPublicKeyContext := by
  cases input with
  | addressScreen => cases calls
  | apdu apdu =>
    rw [Device.resumedBy] at calls
    split at calls
    · cases calls
      rfl
    · cases calls
  | button button =>
    rw [Device.resumedBy] at calls
    split at calls
    · cases calls
      exact pressed_keys device
    · cases calls

/-- Under the words the session began with both devices sign under the same path. -/
theorem sameWords_of_signs {called : Device} {input : Input}
    (calls : called ∈ first.resumedBy input)
    (kept : second.getPublicKeyContext.bip44Path.read 0 4 = words)
    (signs : called.SignsUnder words) (compute : called.signTxnContext.txnState = .computeSigs) :
    SameWords first second := by
  rw [SameWords, kept, ← resumedBy_keys calls]
  exact signs compute

/-- A press that keeps the condition reads no byte that was not received. -/
theorem pressAllowed_of_undisturbed {rx : Nat} {input : Input}
    (press : ∀ apdu, input ≠ .apdu apdu) (whole : first.HasChunk rx)
    (allowed : first.Undisturbed sdk words input) : first.PressAllowed sdk rx input := by
  intro called calls
  cases input with
  | apdu apdu => exact absurd rfl (press apdu)
  | addressScreen => cases calls
  | button button =>
    obtain ⟨_, hashFirst⟩ := allowed called calls
    have chunk : called.HasChunk rx := by
      rw [Device.resumedBy] at calls
      split at calls
      · cases calls
        exact whole.keep (pressed_keepsChunk first)
      · cases calls
    refine ⟨callReads_of_chunk chunk, ?_⟩
    rw [Device.HashFirst] at hashFirst
    cases went : txnNextElem sdk called with
    | error fault => trivial
    | ok result =>
      obtain ⟨code, after⟩ := result
      rw [went] at hashFirst
      simp only at hashFirst ⊢
      rw [(txnNextElem_hasChunk chunk went).place] at hashFirst
      exact hashFirst

/-- The commands and presses of a session from two devices that are apart: the replies are the same,
and the devices are apart again. -/
theorem round_apart (round : Round) (apart : Apart words first second)
    (allowed : Runs.Along (step sdk) (Device.Undisturbed sdk words) first round.own) :
    Runs.Related (fun one other => repliesIn (first.since one) = repliesIn (second.since other) ∧
        Apart words one other)
      (run sdk first round.own) (run sdk second round.own) := by
  obtain ⟨here, later⟩ := Runs.along_cons.mp allowed
  have asked : first.AsksToSign round.command :=
    (asksToSign_signApdu first round.p1 round.data round.fits).1
  have long : 5 ≤ round.command.bytes.length := by
    have length : round.command.bytes.length = 5 + round.data.length := List.length_append
    omega
  have signs : ∀ called ∈ first.resumedBy (.apdu round.command), called.SignsUnder words := by
    rw [Device.Undisturbed, if_pos asked] at here
    exact here
  have stepped := (signs_twins sdk apart.kin asked long
    (fun called calls => by
      rw [Device.resumedBy] at calls
      split at calls
      · cases calls
        exact callReads_of_chunk (loaded_hasChunk first round)
      · cases calls)
    (fun called calls => sameWords_of_signs calls apart.kin.like (signs called calls))).knowing
      fun one => command_hasChunk
  refine stepped.run fun one other went both => ?_
  have along := (later one went).and (Runs.along_of_forall round.noCommand one)
  have presses : Runs.Related (fun one other =>
      Twins (Likeness.round words first.log second.log) round.command.bytes.length one other ∧
        one.HasChunk round.command.bytes.length)
      (run sdk one round.presses) (run sdk other round.presses) := by
    refine Runs.run_related (fun one other input related condition => ?_) both along
    obtain ⟨twins, whole⟩ := related
    obtain ⟨undisturbed, press⟩ := condition
    refine (button_twins twins press (pressAllowed_of_undisturbed press whole undisturbed)
      fun called calls => sameWords_of_signs calls twins.like ?_).knowing
        fun _ => step_hasChunk press whole
    cases input with
    | apdu apdu => exact absurd rfl (press apdu)
    | addressScreen => cases calls
    | button button => exact (undisturbed called calls).1
  refine presses.mono fun last final ends => ⟨?_, Twin.apart ends.1⟩
  obtain ⟨events, logFirst, logSecond⟩ := ends.1.logs
  rw [since_eq logFirst, since_eq logSecond]

/-- The rounds of a session from devices that are apart. The induction is on the rounds: the queries
of a round change the first device only. -/
theorem sessionReplies_apart (rounds : List Round) (apart : Apart words first second)
    (allowed : Runs.Along (step sdk) (Device.Undisturbed sdk words) first
      (rounds.flatMap Round.inputs)) :
    sessionReplies sdk first rounds = sessionReplies sdk second (rounds.map Round.plain) := by
  induction rounds generalizing first second with
  | nil => rfl
  | cons round rest inductionHypothesis =>
    rw [List.flatMap_cons, Round.inputs, List.append_assoc] at allowed
    obtain ⟨before, behind⟩ := Runs.along_append.mp allowed
    obtain ⟨ready, asked, left⟩ := queries_apart apart round.areQueries before
    obtain ⟨own, later⟩ := Runs.along_append.mp (behind ready asked)
    have quiet : run sdk second ((Round.plain round).queries.map Input.apdu) = .ok second := rfl
    have same : (Round.plain round).own = round.own := rfl
    rw [List.map_cons, sessionReplies, sessionReplies, asked, quiet]
    simp only
    rw [same]
    rcases (round_apart round left own).split with
      ⟨fault, wentFirst, wentSecond⟩ | ⟨one, other, wentFirst, wentSecond, replies, parted⟩
    · rw [wentFirst, wentSecond]
    · rw [wentFirst, wentSecond]
      simp only
      rw [replies, inductionHypothesis parted (later one wentFirst)]

end Rounds

/-! ### A session with queries -/

/-- A round whose presses are right ones. -/
def Round.pressing (queries : List Apdu) (areQueries : ∀ query ∈ queries, query.IsQuery) (p1 : Byte)
    (data : Bytes) (fits : data.length ≤ 255) (count : Nat) : Round where
  queries := queries
  p1 := p1
  data := data
  fits := fits
  presses := List.replicate count (.button .right)
  areQueries := areQueries
  noCommand := by
    intro input member apdu
    rw [List.eq_of_mem_replicate member]
    exact nofun

/-- The sample session, in which the user presses only to answer a command, with the same queries
after its first and after its second reply. -/
def sampleRounds (queries : List Apdu) (areQueries : ∀ query ∈ queries, query.IsQuery) :
    List Round :=
  [Round.pressing [] (fun _ member => nomatch member) 0
      (le32 1 ++ sampleInput ++ le32 1 ++ sampleOutput) sample_fits 1,
    Round.pressing queries areQueries 1 [] empty_fits 1,
    Round.pressing queries areQueries 1 [] empty_fits 0]

/-- `GET_PUBLIC_KEY` for an address of the second account. -/
def secondAccountQuery : Apdu where
  bytes := [0x80, 4, 0, 0, 20, 0x80, 0, 0, 44, 0x80, 0, 0x1f, 0x40, 0x80, 0, 0, 1, 0, 0, 0, 0, 0, 0,
    0, 5]
  fits := by decide

/-- `GET_VERSION`, and `GET_ADDRESS` for a path that is refused before a word of it is stored. -/
def harmlessQueries : List Apdu :=
  [versionApdu, { bytes := [0x80, 2, 0, 0, 20] ++ List.replicate 20 0, fits := by decide }]

end LedgerNano
