/-
This file asks when the device works on received bytes only.

It handles one command, and the presses that follow it, on two transport buffers with
different contents. `received_bytes_count` says when the two runs are the same but for the
buffer: the header has arrived, a path query has its twenty bytes or is refused before the
missing ones, an answer does not begin with bytes of another one, and no pass of the parser
reads behind the bytes received. The source checks none of this, so that the length byte of
a command, or a short path, makes it hash, derive and store what was left over.
-/

import LedgerNano.Twins

namespace LedgerNano

/-! ### Paths whose bytes did not all arrive -/

section Path

variable {first second : Bytes} {received : Nat}

theorem u4BE_congr (same : ∀ index < received, byteAt first index = byteAt second index)
    {off : Nat} (inside : off + 4 ≤ received) : u4BE first off = u4BE second off := by
  unfold u4BE
  rw [same off (by omega), same (off + 1) (by omega), same (off + 2) (by omega),
    same (off + 3) (by omega)]

/-- A word whose first byte arrived, without the bit of a hardened one. -/
def Unhardened (data : Bytes) (received i : Nat) : Prop :=
  4 * i < received ∧ (byteAt data (4 * i) >>> 7) &&& 1 = 0

instance (data : Bytes) (received i : Nat) : Decidable (Unhardened data received i) :=
  inferInstanceAs (Decidable (_ ∧ _))

/-- The words are checked in order, so that a path is refused at such a word before a byte behind it
is read. The induction is on the words left. -/
theorem storePathWords_congr (same : ∀ index < received, byteAt first index = byteAt second index)
    {words : List Nat} (ordered : words.Pairwise (· < ·)) (path : Cells Nat 5)
    (stops : ∃ i ∈ words, i < 3 ∧ Unhardened first received i) :
    storePathWords first words path = storePathWords second words path ∧
      (storePathWords first words path).1 ≠ none := by
  induction words generalizing path with
  | nil =>
    obtain ⟨_, member, _⟩ := stops
    exact absurd member List.not_mem_nil
  | cons word rest inductionHypothesis =>
    obtain ⟨behind, later⟩ := List.pairwise_cons.mp ordered
    obtain ⟨i, member, few, arrived, bit⟩ := stops
    rw [storePathWords, storePathWords]
    rcases List.mem_cons.mp member with here | there
    · subst here
      rw [← same _ arrived, if_pos ⟨few, not_not.mpr bit⟩, if_pos ⟨few, not_not.mpr bit⟩]
      exact ⟨rfl, Option.some_ne_none _⟩
    · have before := behind i there
      rw [← same (4 * word) (by omega), ← u4BE_congr same (by omega)]
      split
      · exact ⟨rfl, Option.some_ne_none _⟩
      · exact inductionHypothesis later _ ⟨i, there, few, arrived, bit⟩

theorem getBip44Path_congr (same : ∀ index < received, byteAt first index = byteAt second index)
    (path : Cells Nat 5) (stops : ∃ i < 3, Unhardened first received i) :
    getBip44Path first path = getBip44Path second path := by
  obtain ⟨i, few, unhardened⟩ := stops
  have member : i ∈ List.range bip44PathLen := List.mem_range.mpr (lt_trans few (by decide))
  obtain ⟨equal, thrown⟩ :=
    storePathWords_congr same List.pairwise_lt_range path ⟨i, member, few, unhardened⟩
  unfold getBip44Path
  rw [← equal]

end Path

/-! ### Queries -/

section Queries

variable {likeness : Likeness} {limit : Nat} {first second : Device} {sdk : Sdk}

/-- The bytes of a command's path that a path query needs have arrived: all twenty, or those up to
a word that is refused. -/
def PathReceived (bytes : Bytes) : Prop :=
  25 ≤ bytes.length ∨ ∃ i < 3, Unhardened (bytes.drop 5) (bytes.length - 5) i

instance (bytes : Bytes) : Decidable (PathReceived bytes) :=
  inferInstanceAs (Decidable (_ ∨ _))

/-- Two transport buffers that hold the command are read for the same path. -/
theorem requestedPath_congr {bytes : Bytes} (arrived : PathReceived bytes)
    (agree : Cells.AgreeTo bytes.length first.apduBuffer second.apduBuffer)
    (holds : first.apduBuffer.read 0 bytes.length = bytes)
    (keys : first.getPublicKeyContext = second.getPublicKeyContext) :
    first.requestedPath = second.requestedPath := by
  unfold Device.requestedPath
  rw [← keys]
  rcases arrived with whole | ⟨i, few, arrived, bit⟩
  · rw [agree.read (by omega)]
  · by_cases whole : 25 ≤ bytes.length
    · rw [agree.read (by omega)]
    have front : ∀ buffer : Cells Byte 260, ∀ index < bytes.length - 5,
        byteAt (buffer.read 5 20) index = byteAt (buffer.read 5 (bytes.length - 5)) index := by
      intro buffer index inside
      rw [← Cells.take_read buffer 5 20 (bytes.length - 5) (by omega), byteAt, byteAt,
        List.getD_eq_getElem?_getD, List.getD_eq_getElem?_getD, List.getElem?_take_of_lt inside]
    have data : first.apduBuffer.read 5 (bytes.length - 5) = bytes.drop 5 := by
      rw [← Cells.drop_read _ 0 bytes.length 5, holds]
    refine getBip44Path_congr (fun index inside => ?_) _
      ⟨i, few, arrived, ?_⟩
    · rw [front _ _ inside, front _ _ inside, agree.read (by omega)]
    · rw [front _ _ arrived, data]
      exact bit

/-- Nothing but the transport buffer differs. -/
def Likeness.same (past : List Event) : Likeness where
  keys := Eq
  pastFirst := past
  pastSecond := past
  patch := by
    rintro keys _ rfl path _
    rfl

variable {past : List Event}

theorem Twin.answered (twin : Twin likeness limit first second) (payload : Bytes)
    (fits : payload.length ≤ 260) :
    Twin likeness (max limit payload.length) (first.answer payload) (second.answer payload) := by
  have written := (twin.write payload (Nat.zero_le limit) (by omega)).withTx
    (first.tx + payload.length)
  rw [Nat.zero_add] at written
  rw [Device.answer, Device.answer, twin.tx_eq]
  exact written

theorem deriveRequested_twins (sdk : Sdk) (twin : Twin (Likeness.same past) limit first second)
    (path : first.requestedPath = second.requestedPath) :
    (deriveRequested sdk 5 first).1 = (deriveRequested sdk 5 second).1 ∧
      Twin (Likeness.same past) limit (deriveRequested sdk 5 first).2
        (deriveRequested sdk 5 second).2 := by
  have keys : first.getPublicKeyContext = second.getPublicKeyContext := twin.like
  have stored := twin.withKeys (show (Likeness.same past).keys
    { first.getPublicKeyContext with bip44Path := first.requestedPath.2 }
    { second.getPublicKeyContext with bip44Path := second.requestedPath.2 } by
      show _ = _
      rw [keys, path])
  unfold deriveRequested
  rw [← Device.requestedPath, ← Device.requestedPath]
  simp only
  rw [← path] at stored ⊢
  cases first.requestedPath.1 with
  | some code => exact ⟨rfl, stored⟩
  | none => exact ⟨rfl, stored.record _⟩

/-- The answers to a query from two devices: they are alike, and agree as far as the payload. -/
structure QueryTwins (past : List Event) (limit tx : Nat) (first second : Nat × Device) : Prop where
  code : first.1 = second.1
  answers : ∃ (payload : Bytes) (one other : Device), payload.length ≤ 65 ∧ one.tx = tx ∧
    Twin (Likeness.same past) limit one other ∧
      first.2 = one.answer payload ∧ second.2 = other.answer payload

theorem queryTwins_refused {code tx : Nat} (twin : Twin (Likeness.same past) limit first second)
    (start : first.tx = tx) : QueryTwins past limit tx (code, first) (code, second) :=
  ⟨rfl, [], first, second, Nat.zero_le _, start, twin, (answer_nil first).symm,
    (answer_nil second).symm⟩

theorem deriveRequested_tx (sdk : Sdk) (device : Device) :
    (deriveRequested sdk 5 device).2.tx = device.tx := by
  obtain ⟨derived, begun, _⟩ := deriveRequested_eq sdk device
  rw [begun]
  rfl

/-- The two handlers that answer with a key or a signature. -/
theorem handleGetPublicKey_twins (twin : Twin (Likeness.same past) limit first second)
    (path : first.requestedPath = second.requestedPath) :
    QueryTwins past limit first.tx (handleGetPublicKey sdk 5 first)
      (handleGetPublicKey sdk 5 second) := by
  obtain ⟨same, left⟩ := deriveRequested_twins sdk twin path
  have start := deriveRequested_tx sdk first
  unfold handleGetPublicKey
  revert same left start
  cases deriveRequested sdk 5 first with
  | mk result one =>
    cases deriveRequested sdk 5 second with
    | mk other two =>
      rintro rfl left start
      cases result with
      | error code => exact queryTwins_refused left start
      | ok keys =>
        exact ⟨rfl, keys.2.contents, one, two, le_of_eq keys.2.length_contents, start, left, rfl,
          rfl⟩

theorem handleGetSignedPublicKey_twins (twin : Twin (Likeness.same past) limit first second)
    (path : first.requestedPath = second.requestedPath) :
    QueryTwins past limit first.tx (handleGetSignedPublicKey sdk 5 first)
      (handleGetSignedPublicKey sdk 5 second) := by
  obtain ⟨same, left⟩ := deriveRequested_twins sdk twin path
  have start := deriveRequested_tx sdk first
  unfold handleGetSignedPublicKey
  revert same left start
  cases deriveRequested sdk 5 first with
  | mk result one =>
    cases deriveRequested sdk 5 second with
    | mk other two =>
      rintro rfl left start
      cases result with
      | error code => exact queryTwins_refused left start
      | ok keys =>
        obtain ⟨privateKey, publicKey⟩ := keys
        simp only
        cases sign sdk privateKey (sdk.sha256 publicKey.contents).contents with
        | error code => exact queryTwins_refused left start
        | ok signature =>
          exact ⟨rfl, signature.contents, one, two, le_of_eq signature.length_contents, start,
            left, rfl, rfl⟩

/-- The handler that also stores the address, with the bytes behind it as they were. -/
theorem handleGetAddress_twins (twin : Twin (Likeness.same past) limit first second)
    (path : first.requestedPath = second.requestedPath) :
    QueryTwins past limit first.tx (handleGetAddress sdk 5 first)
      (handleGetAddress sdk 5 second) := by
  obtain ⟨same, left⟩ := deriveRequested_twins sdk twin path
  have start := deriveRequested_tx sdk first
  unfold handleGetAddress
  revert same left start
  cases deriveRequested sdk 5 first with
  | mk result one =>
    cases deriveRequested sdk 5 second with
    | mk other two =>
      rintro rfl left start
      cases result with
      | error code => exact queryTwins_refused left start
      | ok keys =>
        obtain ⟨privateKey, publicKey⟩ := keys
        have like : one.getPublicKeyContext = two.getPublicKeyContext := left.like
        set address := storeText one.getPublicKeyContext.address (generateAddress sdk publicKey)
          with addressIs
        have stored := left.withKeys (show (Likeness.same past).keys
          { one.getPublicKeyContext with address } { two.getPublicKeyContext with address } by
            show _ = _
            rw [like])
        have length : (textOf address).length ≤ 36 :=
          le_trans (List.takeWhile_prefix _).length_le (le_of_eq address.length_contents)
        refine ⟨rfl, textOf address, { one with getPublicKeyContext.address := address },
          { two with getPublicKeyContext.address := address }, by omega, start, stored, rfl, ?_⟩
        simp only
        rw [addressIs, like]

/-- The instructions that answer at once. -/
theorem runHandler_twins {instruction : Instruction}
    (twin : Twin (Likeness.same past) limit first second)
    (query : instruction ≠ .signTransaction)
    (path : instruction ≠ .getVersion → first.requestedPath = second.requestedPath) :
    ∃ one other, runHandler sdk instruction first = .ok (some one.1, one.2) ∧
      runHandler sdk instruction second = .ok (some other.1, other.2) ∧
      QueryTwins past limit first.tx one other := by
  cases instruction with
  | signTransaction => exact absurd rfl query
  | getVersion =>
    refine ⟨handleGetVersion first, handleGetVersion second, rfl, rfl, rfl, ?_⟩
    exact ⟨_, first, second, by decide, rfl, twin, rfl, rfl⟩
  | getAddress =>
    exact ⟨_, _, rfl, rfl, handleGetAddress_twins twin (path nofun)⟩
  | getPublicKey =>
    exact ⟨_, _, rfl, rfl, handleGetPublicKey_twins twin (path nofun)⟩
  | getSignedPublicKey =>
    exact ⟨_, _, rfl, rfl, handleGetSignedPublicKey_twins twin (path nofun)⟩

end Queries

/-! ### Commands -/

section Commands

variable {likeness : Likeness} {limit : Nat} {first second : Device} {sdk : Sdk} {apdu : Apdu}
  {past : List Event}

/-- The bytes of a command that decide what it asks for have arrived. -/
def Apdu.HeaderReceived (apdu : Apdu) : Prop :=
  apdu.bytes.length = 0 ∨ byteAt apdu.bytes 0 ≠ 0x80 ∨
    2 ≤ apdu.bytes.length ∧
      match lookupHandler (byteAt apdu.bytes 1) with
      | none => True
      | some .getVersion => True
      | some .signTransaction => 5 ≤ apdu.bytes.length
      | some _ => PathReceived apdu.bytes

instance (apdu : Apdu) : Decidable apdu.HeaderReceived :=
  letI : Decidable (match lookupHandler (byteAt apdu.bytes 1) with
      | none => True
      | some .getVersion => True
      | some .signTransaction => 5 ≤ apdu.bytes.length
      | some _ => PathReceived apdu.bytes) := by
    split <;> infer_instance
  inferInstanceAs (Decidable (_ ∨ _ ∨ _ ∧ _))

theorem Apdu.HeaderReceived.long {device : Device} (header : apdu.HeaderReceived)
    (asked : device.AsksToSign apdu) : 5 ≤ apdu.bytes.length := by
  rcases header with empty | cla | ⟨long, needs⟩
  · exact absurd empty asked.1
  · have nonempty := asked.1
    rw [← header_eq device apdu 0 (by omega)] at cla
    exact absurd asked.2.1 cla
  · have sign := (lookupHandler_sign _).mpr ((asksToSign_iff device long).mp asked).2
    rw [sign] at needs
    exact needs

theorem Twin.received (twin : Twin likeness limit first second) (apdu : Apdu) :
    Twin likeness apdu.bytes.length (first.receive apdu) (second.receive apdu) := by
  have written := (twin.write apdu.bytes (Nat.zero_le limit)
    (by rw [Nat.zero_add]; exact apdu.fits)).record (.command apdu.bytes)
  exact written.mono (by omega)

/-- A command for another instruction than the signing one is dispatched alike. -/
theorem dispatch_twins (sdk : Sdk) (twin : Twin (Likeness.same past) limit first second)
    (other : ¬ first.AsksToSign apdu) (header : apdu.HeaderReceived) :
    ∃ one two, dispatch sdk apdu.bytes.length (first.receive apdu) = .ok (some one.1, one.2) ∧
      dispatch sdk apdu.bytes.length (second.receive apdu) = .ok (some two.1, two.2) ∧
      QueryTwins past apdu.bytes.length first.tx one two := by
  have received := twin.received apdu
  have head : ∀ (device : Device) (index : Nat), index < apdu.bytes.length →
      byteAt (device.receive apdu).apduBuffer.contents index = byteAt apdu.bytes index :=
    fun device index inside => header_eq device apdu index inside
  have refused : ∀ code, QueryTwins past apdu.bytes.length first.tx (code, first.receive apdu)
      (code, second.receive apdu) := fun code => queryTwins_refused received rfl
  unfold dispatch
  by_cases empty : apdu.bytes.length = 0
  · rw [if_pos empty, if_pos empty]
    exact ⟨_, _, rfl, rfl, refused 0x6982⟩
  rw [if_neg empty, if_neg empty, head first 0 (by omega), head second 0 (by omega)]
  by_cases cla : byteAt apdu.bytes 0 ≠ 0x80
  · rw [if_pos cla, if_pos cla]
    exact ⟨_, _, rfl, rfl, refused 0x6E00⟩
  obtain ⟨long, needs⟩ := (header.resolve_left empty).resolve_left cla
  rw [if_neg cla, if_neg cla, head first 1 (by omega), head second 1 (by omega)]
  cases found : lookupHandler (byteAt apdu.bytes 1) with
  | none => exact ⟨_, _, rfl, rfl, refused 0x6D00⟩
  | some instruction =>
    have query : instruction ≠ .signTransaction := by
      rintro rfl
      exact other ((asksToSign_iff first long).mpr
        ⟨not_not.mp cla, (lookupHandler_sign _).mp found⟩)
    refine runHandler_twins received query fun path => ?_
    have arrived : PathReceived apdu.bytes := by
      rw [found] at needs
      cases instruction with
      | getVersion => exact absurd rfl path
      | signTransaction => exact absurd rfl query
      | getAddress => exact needs
      | getPublicKey => exact needs
      | getSignedPublicKey => exact needs
    have holds : (first.receive apdu).apduBuffer.read 0 apdu.bytes.length = apdu.bytes :=
      Cells.read_write_self _ 0 apdu.bytes (by rw [Nat.zero_add]; exact apdu.fits)
    exact requestedPath_congr arrived received.agree holds received.like

/-- The answer to such a command, if it does not begin with bytes that were not received. -/
theorem answers_twins (twin : Twin (Likeness.same past) limit first second)
    (other : ¬ first.AsksToSign apdu) (header : apdu.HeaderReceived)
    (room : first.tx = 0 ∨
      first.tx + (answerOf (first.outcome sdk apdu)).2.length ≤ apdu.bytes.length) :
    Runs.Related (Twins (Likeness.same past) apdu.bytes.length) (step sdk first (.apdu apdu))
      (step sdk second (.apdu apdu)) := by
  obtain ⟨⟨code, left⟩, ⟨sameCode, right⟩, wentFirst, wentSecond, same, answers⟩ :=
    dispatch_twins sdk twin other header
  obtain ⟨payload, one, two, short, start, both, rfl, rfl⟩ := answers
  obtain ⟨context, derived, dispatched, _⟩ := dispatch_answers sdk first apdu other
  have length : payload.length = (answerOf (first.outcome sdk apdu)).2.length := by
    rw [wentFirst] at dispatched
    have ends : one.tx + payload.length =
        first.tx + (answerOf (first.outcome sdk apdu)).2.length :=
      congrArg (fun result : Option Nat × Device => result.2.tx) (Except.ok.inj dispatched)
    omega
  have answered := both.answered payload (le_trans short (by decide))
  have ends : (one.answer payload).tx = first.tx + payload.length := by
    rw [← start]
    rfl
  rw [step, step, skyMainTurn, skyMainTurn]
  simp only [wentFirst, wentSecond]
  rw [← show code = sameCode from same, sendStatus, sendStatus, answered.tx_eq]
  refine (ioExchangeWithCode_twins answered (exceptionStatus code) (by rw [ends]; omega)).map
    fun left right sent => ?_
  refine Twin.mono (sent.1.withTx 0) ?_
  show max apdu.bytes.length 0 ≤ _
  omega

end Commands

/-! ### Runs -/

section Runs

variable {sdk : Sdk} {first second : Device}

/-- What is asked of an input so that the device works on received bytes only. -/
def Device.WorksOnReceived (sdk : Sdk) (rx : Nat) (device : Device) : Input → Prop
  | .apdu apdu =>
    apdu.HeaderReceived ∧
      if device.AsksToSign apdu then
        ∀ called ∈ device.resumedBy (.apdu apdu), called.CallReads sdk rx
      else
        device.tx = 0 ∨ device.tx + (answerOf (device.outcome sdk apdu)).2.length ≤ rx
  | .button button => device.PressAllowed sdk rx (.button button)
  | .addressScreen => True

instance (sdk : Sdk) (rx : Nat) (device : Device) :
    ∀ input, Decidable (device.WorksOnReceived sdk rx input)
  | .apdu _ => inferInstanceAs (Decidable (_ ∧ ite _ _ _))
  | .button _ => inferInstanceAs (Decidable (Device.PressAllowed _ _ _ _))
  | .addressScreen => isTrue trivial

/-- The devices are the same but for the transport buffer. -/
def SameButBuffer (first second : Device) : Prop :=
  second = { first with apduBuffer := second.apduBuffer }

theorem Twins.sameButBuffer {past : List Event} {rx : Nat}
    (twins : Twins (Likeness.same past) rx first second) : SameButBuffer first second := by
  obtain ⟨keys, apduBuffer, log, rfl, ⟨events, firstLog, rfl⟩, _⟩ := twins
  rw [SameButBuffer]
  simp only
  rw [firstLog]
  rfl

/-- One command and the presses that follow it, on two transport buffers. Where every step works on
received bytes only, nothing but the transport buffer can differ afterwards: not the log of replies,
derivations and texts, and not the state. -/
theorem received_bytes_count (sdk : Sdk) (device : Device) (other : Cells Byte 260) (apdu : Apdu)
    (presses : List Input) (noCommand : ∀ input ∈ presses, ∀ apdu, input ≠ .apdu apdu)
    (received : Runs.Along (step sdk) (Device.WorksOnReceived sdk apdu.bytes.length) device
      (.apdu apdu :: presses)) :
    Runs.Related SameButBuffer (run sdk device (.apdu apdu :: presses))
      (run sdk { device with apduBuffer := other } (.apdu apdu :: presses)) := by
  have twin : Twin (Likeness.same device.log) 0 device { device with apduBuffer := other } :=
    Twin.intro device.getPublicKeyContext other device.log rfl ⟨[], rfl, rfl⟩ rfl
  obtain ⟨here, later⟩ := Runs.along_cons.mp received
  have stepped : Runs.Related (Twins (Likeness.same device.log) apdu.bytes.length)
      (step sdk device (.apdu apdu))
      (step sdk { device with apduBuffer := other } (.apdu apdu)) := by
    obtain ⟨header, needs⟩ := here
    by_cases asked : device.AsksToSign apdu
    · rw [if_pos asked] at needs
      exact signs_twins sdk twin.kin asked (header.long asked) needs fun _ _ _ => rfl
    · rw [if_neg asked] at needs
      exact answers_twins twin asked header needs
  refine stepped.run fun next following went both => ?_
  have along := (later next went).and (Runs.along_of_forall noCommand next)
  refine (Runs.run_related (fun first second input twins allowed => ?_) both along).mono
    fun _ _ => Twins.sameButBuffer
  obtain ⟨works, press⟩ := allowed
  refine button_twins twins press ?_ fun _ _ _ => ?_
  · cases input with
    | apdu command => exact absurd rfl (press command)
    | button button => exact works
    | addressScreen => exact nofun
  · exact congrArg (fun keys : GetPublicKeyContext => keys.bip44Path.read 0 4) twins.like

end Runs

/-- The first command of the sample session with its two presses, on a transport buffer full of
ones. -/
theorem received_bytes_count_sample :
    Runs.Related SameButBuffer (run Sdk.plain Device.boot (sampleSession.take 3))
      (run Sdk.plain { Device.boot with apduBuffer := Cells.fill 255 } (sampleSession.take 3)) :=
  received_bytes_count Sdk.plain Device.boot (Cells.fill 255)
    (signApdu 0 (le32 1 ++ sampleInput ++ le32 1 ++ sampleOutput) (by decide))
    [.button .right, .button .right]
    (by
      intro input member apdu
      have press := List.eq_of_mem_replicate (n := 2) (a := Input.button .right) member
      rw [press]
      exact Input.noConfusion)
    (by decide +kernel)

/-- A public key is asked for without a path: what was left behind the five bytes is taken for one,
and its words are stored. -/
theorem leftovers_can_count : ¬ ∀ (sdk : Sdk) (device : Device) (other : Cells Byte 260)
    (apdu : Apdu) (presses : List Input), (∀ input ∈ presses, ∀ apdu, input ≠ .apdu apdu) →
      Runs.Related SameButBuffer (run sdk device (.apdu apdu :: presses))
        (run sdk { device with apduBuffer := other } (.apdu apdu :: presses)) := by
  intro all
  have related := all Sdk.plain Device.boot (Cells.fill 0x80)
    { bytes := [0x80, 4, 0, 0, 0], fits := by decide } [] (fun _ member => nomatch member)
  have zero : Runs.Ends (fun device : Device => pathWord device.getPublicKeyContext.bip44Path 0 = 0)
      (run Sdk.plain Device.boot [.apdu { bytes := [0x80, 4, 0, 0, 0], fits := by decide }]) := by
    decide +kernel
  have stored : Runs.Ends (fun device : Device =>
      pathWord device.getPublicKeyContext.bip44Path 0 = 0x80808080)
      (run Sdk.plain { Device.boot with apduBuffer := Cells.fill 0x80 }
        [.apdu { bytes := [0x80, 4, 0, 0, 0], fits := by decide }]) := by
    decide +kernel
  obtain ⟨one, wentFirst, wordFirst⟩ := Runs.exists_of_ends zero
  obtain ⟨two, wentSecond, wordSecond⟩ := Runs.exists_of_ends stored
  rw [wentFirst, wentSecond] at related
  cases related with
  | ok same =>
    rw [same] at wordSecond
    exact absurd (wordFirst.symm.trans wordSecond) (by decide)

end LedgerNano
