import Doli.Lib.Ancestry
import Doli.Validation.Slash

/-!
# Header download

Batches of headers from any peer are linked to the end of the chain so far.  The running
height of the downloader is kept apart from the list of headers; over every run it is the
height of the resume point plus the position in the chain, as far as a `u64` counts.
-/

namespace Doli.Network

open Doli.Core Doli.Lib
open Doli.Producer (satAddAmount)
open Doli.Validation (BlockHeader Crypto sampleCrypto verifyBlockSignature)

structure HeaderChainBreak where
  expected : Hash
  actual : Hash
  headerSlot : UInt32
  validSoFar : Nat
  firstHeaderValid : Bool
  deriving DecidableEq, Repr

structure HeaderDownloader where
  maxHeadersPerRequest : Nat
  validatedHeaders : List BlockHeader
  knownHashes : Finset Hash
  expectedPrevHash : Option Hash
  totalDownloaded : Nat
  lastChainBreak : Option HeaderChainBreak
  blockSignatureActivationHeight : Nat
  /-- Read only while `expectedPrevHash` is set. -/
  nextHeight : Nat
  deriving DecidableEq

/-- The locals of `accept_headers`.  The source does not keep `passedAt`, the heights at
which the accepted headers were checked. -/
structure Accepting where
  downloader : HeaderDownloader
  accepted : List BlockHeader
  passedAt : List Nat
  validCount : Nat
  prevHash : Hash
  height : Nat
  deriving DecidableEq

namespace HeaderDownloader

variable (crypto : Crypto)

def new (maxHeadersPerRequest : Nat) : HeaderDownloader where
  maxHeadersPerRequest := maxHeadersPerRequest
  validatedHeaders := []
  knownHashes := ∅
  expectedPrevHash := none
  totalDownloaded := 0
  lastChainBreak := none
  blockSignatureActivationHeight := 2 ^ 64 - 1
  nextHeight := 0

def setBlockSignatureActivationHeight (downloader : HeaderDownloader) (ah : Nat) :
    HeaderDownloader :=
  { downloader with blockSignatureActivationHeight := ah }

/-- A version, and a timestamp at most an hour ahead of the clock. -/
def validateHeader (now : Nat) (header : BlockHeader) : Bool :=
  decide (header.version ≠ 0) && decide (header.timestamp.toNat ≤ now + 3600)

def headerPasses (downloader : HeaderDownloader) (now : Nat) (header : BlockHeader)
    (height : Nat) : Bool :=
  validateHeader now header &&
    (decide (height < downloader.blockSignatureActivationHeight) ||
      decide (verifyBlockSignature header crypto = .ok ()))

/-- The step of the loop for a header that is known already. -/
def skipKnown (loop : Accepting) (header : BlockHeader) : Accepting :=
  { loop with
    prevHash := header.hash crypto.blake3
    height := satAddAmount loop.height 1 }

/-- The step of the loop for a new header that passes. -/
def pushValid (loop : Accepting) (header : BlockHeader) : Accepting where
  downloader :=
    { loop.downloader with
      validatedHeaders := loop.downloader.validatedHeaders ++ [header]
      knownHashes := insert (header.hash crypto.blake3) loop.downloader.knownHashes }
  accepted := loop.accepted ++ [header]
  passedAt := loop.passedAt ++ [loop.height]
  validCount := loop.validCount + 1
  prevHash := header.hash crypto.blake3
  height := satAddAmount loop.height 1

/-- The loop stops at a header that does not link. -/
def breakAt (loop : Accepting) (now : Nat) (header : BlockHeader) : Accepting :=
  { loop with
    downloader :=
      { loop.downloader with
        lastChainBreak := some
          { expected := loop.prevHash
            actual := header.prevHash
            headerSlot := header.slot
            validSoFar := loop.validCount
            firstHeaderValid := decide (loop.validCount = 0) &&
              loop.downloader.headerPasses crypto now header loop.height } } }

/-- The clock is read anew for every header. -/
def acceptLoop : (Nat → Nat) → Accepting → List BlockHeader → Accepting
  | _, loop, [] => loop
  | clock, loop, header :: rest =>
      if header.prevHash ≠ loop.prevHash then breakAt crypto loop (clock 0) header
      else if header.hash crypto.blake3 ∈ loop.downloader.knownHashes then
        acceptLoop (fun index => clock (index + 1)) (skipKnown crypto loop header) rest
      else if loop.downloader.headerPasses crypto (clock 0) header loop.height then
        acceptLoop (fun index => clock (index + 1)) (pushValid crypto loop header) rest
      else loop

/-- The headers after the one that `prevHash` names, or all of them. -/
def afterTip (prevHash : Hash) (headers : List BlockHeader) : List BlockHeader :=
  match headers.findIdx? (fun header => header.hash crypto.blake3 = prevHash) with
  | some index => headers.drop (index + 1)
  | none => headers

def entering (downloader : HeaderDownloader) (localTip : Hash) (localHeight : Nat) :
    Accepting where
  downloader := { downloader with lastChainBreak := none }
  accepted := []
  passedAt := []
  validCount := 0
  prevHash := downloader.expectedPrevHash.getD localTip
  height :=
    match downloader.expectedPrevHash with
    | some _ => downloader.nextHeight
    | none => satAddAmount localHeight 1

def leaving (loop : Accepting) : HeaderDownloader :=
  if 0 < loop.validCount then
    { loop.downloader with
      expectedPrevHash := some loop.prevHash
      nextHeight := loop.height
      totalDownloaded := loop.downloader.totalDownloaded + loop.validCount }
  else loop.downloader

/-- The accepted headers, and the heights at which they were checked. -/
def acceptHeaders (downloader : HeaderDownloader) (clock : Nat → Nat)
    (headers : List BlockHeader) (localTip : Hash) (localHeight : Nat) :
    HeaderDownloader × List BlockHeader × List Nat :=
  let loop := downloader.entering localTip localHeight
  match headers with
  | [] => (loop.downloader, [], [])
  | headers =>
      let final := acceptLoop crypto clock loop (afterTip crypto loop.prevHash headers)
      (leaving final, final.accepted, final.passedAt)

def takeHeaders (downloader : HeaderDownloader) (count : Nat) :
    HeaderDownloader × List BlockHeader :=
  ({ downloader with validatedHeaders := downloader.validatedHeaders.drop count },
    downloader.validatedHeaders.take count)

def clear (downloader : HeaderDownloader) : HeaderDownloader :=
  { downloader with
    validatedHeaders := []
    knownHashes := ∅
    expectedPrevHash := none
    lastChainBreak := none
    nextHeight := 0 }

def resumeFrom (downloader : HeaderDownloader) (hash : Hash) (height : Nat) :
    HeaderDownloader :=
  { downloader with
    expectedPrevHash := some hash
    nextHeight := satAddAmount height 1
    validatedHeaders := []
    knownHashes := ∅ }

end HeaderDownloader

/-! ## Runs -/

inductive DownloadOp where
  | acceptHeaders (clock : Nat → Nat) (headers : List BlockHeader) (localTip : Hash)
      (localHeight : Nat)
  | takeHeaders (count : Nat)
  | clear
  | resumeFrom (hash : Hash) (height : Nat)

/-- A downloader with what happened since the last `clear` or `resume_from`: the resume
point, the headers handed out, and the heights at which headers were accepted.  After a
`clear` the resume point is the local tip of the first call that accepts a header. -/
structure DownloadSession where
  downloader : HeaderDownloader
  base : Option (Hash × Nat)
  handedOut : List BlockHeader
  passedAt : List Nat

namespace DownloadSession

def start (downloader : HeaderDownloader) : DownloadSession := ⟨downloader, none, [], []⟩

/-- The headers handed out or held. -/
def chain (session : DownloadSession) : List BlockHeader :=
  session.handedOut ++ session.downloader.validatedHeaders

def step (crypto : Crypto) (session : DownloadSession) : DownloadOp → DownloadSession
  | .acceptHeaders clock headers localTip localHeight =>
      let result :=
        session.downloader.acceptHeaders crypto clock headers localTip localHeight
      { session with
        downloader := result.1
        base := session.base.or
          (if result.2.1 = [] then none else some (localTip, localHeight))
        passedAt := session.passedAt ++ result.2.2 }
  | .takeHeaders count =>
      let result := session.downloader.takeHeaders count
      { session with downloader := result.1, handedOut := session.handedOut ++ result.2 }
  | .clear => ⟨session.downloader.clear, none, [], []⟩
  | .resumeFrom hash height =>
      ⟨session.downloader.resumeFrom hash height, some (hash, height), [], []⟩

def run (crypto : Crypto) (session : DownloadSession) (ops : List DownloadOp) :
    DownloadSession :=
  ops.foldl (step crypto) session

end DownloadSession

/-- The heights of the first `count` headers above `height`. -/
def heightsAbove (height count : Nat) : List Nat :=
  (List.range count).map fun position => satAddAmount height (position + 1)

/-- One linked chain without duplicates from the resume point, every header of it checked
at its height. -/
def OneChain (crypto : Crypto) (session : DownloadSession) : Prop :=
  match session.base with
  | none => session.chain = [] ∧ session.passedAt = []
  | some (hash, height) =>
      LinkedFrom (BlockHeader.hash crypto.blake3) BlockHeader.prevHash hash session.chain ∧
        (session.chain.map (BlockHeader.hash crypto.blake3)).Nodup ∧
        session.passedAt = heightsAbove height session.chain.length

/-- The headers of the batches lie on no cycle of hashes. -/
def Acyclic (crypto : Crypto) (rank : Hash → Nat) (headers : List BlockHeader) : Prop :=
  ∀ header ∈ headers, rank header.prevHash < rank (header.hash crypto.blake3)

theorem satAddAmount_succ (height count : Nat) :
    satAddAmount (satAddAmount height count) 1 = satAddAmount height (count + 1) := by
  unfold satAddAmount
  omega

theorem heightsAbove_succ (height count : Nat) :
    heightsAbove height (count + 1) =
      heightsAbove height count ++ [satAddAmount height (count + 1)] := by
  simp [heightsAbove, List.range_succ]

section Loop

open HeaderDownloader

variable {crypto : Crypto} {rank : Hash → Nat} {hash : Hash} {height : Nat}
  {handedOut before : List BlockHeader} {passedBefore : List Nat} {loop : Accepting}

/-- The chain and the running height of the loop agree. -/
structure Linking (crypto : Crypto) (rank : Hash → Nat) (hash : Hash) (height : Nat)
    (handedOut : List BlockHeader) (passedBefore : List Nat) (loop : Accepting) : Prop where
  linked : LinkedFrom (BlockHeader.hash crypto.blake3) BlockHeader.prevHash hash
    (handedOut ++ loop.downloader.validatedHeaders)
  acyclic : Acyclic crypto rank (handedOut ++ loop.downloader.validatedHeaders)
  known : ∀ known ∈ loop.downloader.knownHashes,
    ∃ header ∈ handedOut ++ loop.downloader.validatedHeaders,
      header.hash crypto.blake3 = known
  prevHash : loop.prevHash = lastKey (BlockHeader.hash crypto.blake3) hash
    (handedOut ++ loop.downloader.validatedHeaders)
  running : loop.height =
    satAddAmount height ((handedOut ++ loop.downloader.validatedHeaders).length + 1)
  passedAt : passedBefore ++ loop.passedAt =
    heightsAbove height (handedOut ++ loop.downloader.validatedHeaders).length

/-- What the loop has added to the downloader it began with. -/
structure Added (began loop : Accepting) : Prop where
  validCount : loop.validCount = loop.accepted.length
  accepted : loop.downloader.validatedHeaders =
    began.downloader.validatedHeaders ++ loop.accepted
  expected : loop.downloader.expectedPrevHash = began.downloader.expectedPrevHash
  nextHeight : loop.downloader.nextHeight = began.downloader.nextHeight
  untouched : loop.accepted = [] → loop.passedAt = [] ∧
    loop.downloader.knownHashes = began.downloader.knownHashes

theorem Linking.notMem_known (hlinking : Linking crypto rank hash height handedOut
    passedBefore loop) {header : BlockHeader} (hlink : header.prevHash = loop.prevHash)
    (hrank : rank header.prevHash < rank (header.hash crypto.blake3)) :
    header.hash crypto.blake3 ∉ loop.downloader.knownHashes := by
  intro hknown
  obtain ⟨other, hother, hsame⟩ := hlinking.known _ hknown
  have hle := hlinking.linked.rank_le_last hlinking.acyclic hother
  rw [hsame, ← hlinking.prevHash, ← hlink] at hle
  omega

theorem Linking.pushValid (hlinking : Linking crypto rank hash height handedOut
    passedBefore loop) {header : BlockHeader} (hlink : header.prevHash = loop.prevHash)
    (hrank : rank header.prevHash < rank (header.hash crypto.blake3)) :
    Linking crypto rank hash height handedOut passedBefore (pushValid crypto loop header) := by
  have hchain : handedOut ++ (HeaderDownloader.pushValid crypto loop
      header).downloader.validatedHeaders =
      (handedOut ++ loop.downloader.validatedHeaders) ++ [header] :=
    (List.append_assoc _ _ _).symm
  constructor
  case linked =>
    rw [hchain, linkedFrom_snoc]
    exact ⟨hlinking.linked, hlink.trans hlinking.prevHash⟩
  case acyclic =>
    intro other hother
    rw [hchain] at hother
    rcases List.mem_append.mp hother with hother | hother
    · exact hlinking.acyclic other hother
    · rwa [List.mem_singleton.mp hother]
  case known =>
    intro known hknown
    rw [hchain]
    rcases Finset.mem_insert.mp hknown with rfl | hknown
    · exact ⟨header, by simp, rfl⟩
    · obtain ⟨other, hother, hsame⟩ := hlinking.known known hknown
      exact ⟨other, List.mem_append_left _ hother, hsame⟩
  case prevHash =>
    rw [hchain, lastKey_append, lastKey_cons, lastKey_nil, HeaderDownloader.pushValid]
  case running =>
    rw [hchain, List.length_append, List.length_singleton, ← satAddAmount_succ,
      ← hlinking.running]
    rfl
  case passedAt =>
    rw [hchain, List.length_append, List.length_singleton, heightsAbove_succ,
      ← hlinking.passedAt, ← hlinking.running, List.append_assoc]
    rfl

theorem Added.pushValid {began : Accepting} (hadded : Added began loop)
    (header : BlockHeader) : Added began (pushValid crypto loop header) where
  validCount := by simp [HeaderDownloader.pushValid, hadded.validCount]
  accepted := by simp [HeaderDownloader.pushValid, hadded.accepted]
  expected := hadded.expected
  nextHeight := hadded.nextHeight
  untouched := by simp [HeaderDownloader.pushValid]

theorem Linking.breakAt (hlinking : Linking crypto rank hash height handedOut passedBefore
    loop) (now : Nat) (header : BlockHeader) :
    Linking crypto rank hash height handedOut passedBefore (breakAt crypto loop now header) :=
  ⟨hlinking.linked, hlinking.acyclic, hlinking.known, hlinking.prevHash, hlinking.running,
    hlinking.passedAt⟩

theorem Added.breakAt {began : Accepting} (hadded : Added began loop) (now : Nat)
    (header : BlockHeader) : Added began (breakAt crypto loop now header) :=
  ⟨hadded.validCount, hadded.accepted, hadded.expected, hadded.nextHeight, hadded.untouched⟩

theorem linking_acceptLoop {began : Accepting} {headers : List BlockHeader}
    (hheaders : Acyclic crypto rank headers) (clock : Nat → Nat)
    (hlinking : Linking crypto rank hash height handedOut passedBefore loop)
    (hadded : Added began loop) :
    Linking crypto rank hash height handedOut passedBefore
        (acceptLoop crypto clock loop headers) ∧
      Added began (acceptLoop crypto clock loop headers) := by
  induction headers generalizing clock loop with
  | nil => exact ⟨hlinking, hadded⟩
  | cons header rest ih =>
      have hrank := hheaders header List.mem_cons_self
      have hrest : Acyclic crypto rank rest :=
        fun other hother => hheaders other (List.mem_cons_of_mem _ hother)
      unfold acceptLoop
      split
      case isTrue hbreak => exact ⟨hlinking.breakAt _ _, hadded.breakAt _ _⟩
      case isFalse hbreak =>
        have hlink := not_not.mp hbreak
        rw [if_neg (hlinking.notMem_known hlink hrank)]
        split
        case isTrue hpasses =>
          exact ih hrest _ (hlinking.pushValid hlink hrank) (hadded.pushValid header)
        case isFalse hfails => exact ⟨hlinking, hadded⟩

end Loop

/-! ## The invariant of a run -/

section Session

open HeaderDownloader

variable {crypto : Crypto} {rank : Hash → Nat} {session : DownloadSession}

/-- Nothing was accepted since the last `clear`. -/
structure Blank (session : DownloadSession) : Prop where
  chain : session.chain = []
  passedAt : session.passedAt = []
  expected : session.downloader.expectedPrevHash = none
  known : session.downloader.knownHashes = ∅

/-- The downloader continues the chain above the resume point. -/
structure Continuing (crypto : Crypto) (rank : Hash → Nat) (hash : Hash) (height : Nat)
    (session : DownloadSession) : Prop where
  linked : LinkedFrom (BlockHeader.hash crypto.blake3) BlockHeader.prevHash hash session.chain
  acyclic : Acyclic crypto rank session.chain
  known : ∀ known ∈ session.downloader.knownHashes,
    ∃ header ∈ session.chain, header.hash crypto.blake3 = known
  expected : session.downloader.expectedPrevHash =
    some (lastKey (BlockHeader.hash crypto.blake3) hash session.chain)
  nextHeight : session.downloader.nextHeight = satAddAmount height (session.chain.length + 1)
  passedAt : session.passedAt = heightsAbove height session.chain.length

def SessionInv (crypto : Crypto) (rank : Hash → Nat) (session : DownloadSession) : Prop :=
  match session.base with
  | none => Blank session
  | some (hash, height) => Continuing crypto rank hash height session

theorem oneChain_of_sessionInv (hinv : SessionInv crypto rank session) :
    OneChain crypto session := by
  unfold SessionInv at hinv
  unfold OneChain
  split
  case h_1 hbase =>
    rw [hbase] at hinv
    exact ⟨hinv.chain, hinv.passedAt⟩
  case h_2 hash height hbase =>
    rw [hbase] at hinv
    exact ⟨hinv.linked, hinv.linked.nodup hinv.acyclic, hinv.passedAt⟩

theorem Blank.linking (hblank : Blank session) (localTip : Hash) (localHeight : Nat) :
    Linking crypto rank localTip localHeight session.handedOut session.passedAt
      (session.downloader.entering localTip localHeight) := by
  have hchain : session.handedOut ++
      (session.downloader.entering localTip localHeight).downloader.validatedHeaders = [] :=
    hblank.chain
  constructor
  case linked =>
    rw [hchain]
    trivial
  case acyclic =>
    rw [hchain]
    simp [Acyclic]
  case known =>
    intro known hknown
    change known ∈ session.downloader.knownHashes at hknown
    simp [hblank.known] at hknown
  case prevHash =>
    rw [hchain]
    simp [entering, hblank.expected]
  case running =>
    rw [hchain]
    simp [entering, hblank.expected]
  case passedAt =>
    rw [hchain, hblank.passedAt]
    rfl

theorem Continuing.linking {hash : Hash} {height : Nat}
    (hcontinuing : Continuing crypto rank hash height session) (localTip : Hash)
    (localHeight : Nat) :
    Linking crypto rank hash height session.handedOut session.passedAt
      (session.downloader.entering localTip localHeight) := by
  refine ⟨hcontinuing.linked, hcontinuing.acyclic, hcontinuing.known, ?_, ?_, ?_⟩
  · simp only [entering, hcontinuing.expected]
    rfl
  · simp only [entering, hcontinuing.expected]
    exact hcontinuing.nextHeight
  · rw [entering, List.append_nil]
    exact hcontinuing.passedAt

theorem Continuing.congr {hash : Hash} {height : Nat} {next : DownloadSession}
    (hcontinuing : Continuing crypto rank hash height session)
    (hchain : next.chain = session.chain)
    (hknown : next.downloader.knownHashes = session.downloader.knownHashes)
    (hexpected : next.downloader.expectedPrevHash = session.downloader.expectedPrevHash)
    (hnext : next.downloader.nextHeight = session.downloader.nextHeight)
    (hpassed : next.passedAt = session.passedAt) :
    Continuing crypto rank hash height next := by
  constructor
  case linked => rw [hchain]; exact hcontinuing.linked
  case acyclic => rw [hchain]; exact hcontinuing.acyclic
  case known => rw [hchain, hknown]; exact hcontinuing.known
  case expected => rw [hchain, hexpected]; exact hcontinuing.expected
  case nextHeight => rw [hchain, hnext]; exact hcontinuing.nextHeight
  case passedAt => rw [hchain, hpassed]; exact hcontinuing.passedAt

theorem added_entering (downloader : HeaderDownloader) (localTip : Hash) (localHeight : Nat) :
    Added (downloader.entering localTip localHeight)
      (downloader.entering localTip localHeight) :=
  ⟨rfl, (List.append_nil _).symm, rfl, rfl, fun _ => ⟨rfl, rfl⟩⟩

theorem Linking.continuing {hash : Hash} {height : Nat} {began loop : Accepting}
    (hlinking : Linking crypto rank hash height session.handedOut session.passedAt loop)
    (hadded : Added began loop) (hsome : loop.accepted ≠ []) (base : Option (Hash × Nat)) :
    Continuing crypto rank hash height
      { session with
        downloader := leaving loop, base := base
        passedAt := session.passedAt ++ loop.passedAt } := by
  have hpos : 0 < loop.validCount := by
    rw [hadded.validCount]
    exact List.length_pos_iff.mpr hsome
  simp only [leaving, if_pos hpos]
  exact ⟨hlinking.linked, hlinking.acyclic, hlinking.known, congrArg some hlinking.prevHash,
    hlinking.running, hlinking.passedAt⟩

theorem Added.unchanged {localTip : Hash} {localHeight : Nat} {loop : Accepting}
    (hadded : Added (session.downloader.entering localTip localHeight) loop)
    (hnone : loop.accepted = []) :
    (leaving loop).validatedHeaders = session.downloader.validatedHeaders ∧
      (leaving loop).knownHashes = session.downloader.knownHashes ∧
      (leaving loop).expectedPrevHash = session.downloader.expectedPrevHash ∧
      (leaving loop).nextHeight = session.downloader.nextHeight ∧ loop.passedAt = [] := by
  have hzero : ¬0 < loop.validCount := by
    rw [hadded.validCount, hnone]
    simp
  simp only [leaving, if_neg hzero]
  obtain ⟨hpassed, hknown⟩ := hadded.untouched hnone
  refine ⟨?_, hknown, hadded.expected, hadded.nextHeight, hpassed⟩
  rw [hadded.accepted, hnone, List.append_nil]
  rfl

theorem acyclic_afterTip {headers : List BlockHeader} (prevHash : Hash)
    (hheaders : Acyclic crypto rank headers) :
    Acyclic crypto rank (afterTip crypto prevHash headers) := by
  intro header hmem
  unfold afterTip at hmem
  split at hmem
  · exact hheaders header (List.mem_of_mem_drop hmem)
  · exact hheaders header hmem

theorem acceptHeaders_eq (crypto : Crypto) (downloader : HeaderDownloader) (clock : Nat → Nat)
    (headers : List BlockHeader) (localTip : Hash) (localHeight : Nat) :
    ∃ loop, loop = acceptLoop crypto clock (downloader.entering localTip localHeight)
        (afterTip crypto (downloader.entering localTip localHeight).prevHash headers) ∧
      downloader.acceptHeaders crypto clock headers localTip localHeight =
        (leaving loop, loop.accepted, loop.passedAt) := by
  cases headers with
  | nil => exact ⟨_, rfl, rfl⟩
  | cons header rest => exact ⟨_, rfl, rfl⟩

theorem SessionInv.acceptHeaders (hinv : SessionInv crypto rank session) (clock : Nat → Nat)
    {headers : List BlockHeader} (hheaders : Acyclic crypto rank headers) (localTip : Hash)
    (localHeight : Nat) :
    SessionInv crypto rank
      (session.step crypto (.acceptHeaders clock headers localTip localHeight)) := by
  obtain ⟨loop, hloop, hcall⟩ := acceptHeaders_eq crypto session.downloader clock headers
    localTip localHeight
  have hbatch := acyclic_afterTip
    (session.downloader.entering localTip localHeight).prevHash hheaders
  have hadded := added_entering session.downloader localTip localHeight
  simp only [DownloadSession.step, hcall]
  unfold SessionInv at hinv ⊢
  rcases hbase : session.base with _ | ⟨hash, height⟩
  · rw [hbase] at hinv
    obtain ⟨hlinking, hadded⟩ :=
      linking_acceptLoop hbatch clock (hinv.linking localTip localHeight) hadded
    rw [← hloop] at hlinking hadded
    by_cases hnone : loop.accepted = []
    · obtain ⟨hheld, hknown, hexpected, -, hpassed⟩ := hadded.unchanged hnone
      simp only [hnone, if_pos, Option.or_none]
      refine ⟨?_, ?_, hexpected.trans hinv.expected, hknown.trans hinv.known⟩
      · rw [DownloadSession.chain, hheld]
        exact hinv.chain
      · rw [hpassed, List.append_nil]
        exact hinv.passedAt
    · simp only [if_neg hnone, Option.none_or]
      exact hlinking.continuing hadded hnone _
  · rw [hbase] at hinv
    obtain ⟨hlinking, hadded⟩ :=
      linking_acceptLoop hbatch clock (hinv.linking localTip localHeight) hadded
    rw [← hloop] at hlinking hadded
    simp only [Option.some_or]
    by_cases hnone : loop.accepted = []
    · obtain ⟨hheld, hknown, hexpected, hnext, hpassed⟩ := hadded.unchanged hnone
      apply hinv.congr
      · rw [DownloadSession.chain, hheld]
        rfl
      · exact hknown
      · exact hexpected
      · exact hnext
      · rw [hpassed, List.append_nil]
    · exact hlinking.continuing hadded hnone _

theorem SessionInv.takeHeaders (hinv : SessionInv crypto rank session) (count : Nat) :
    SessionInv crypto rank (session.step crypto (.takeHeaders count)) := by
  have hchain : (session.step crypto (.takeHeaders count)).chain = session.chain := by
    simp [DownloadSession.step, DownloadSession.chain, HeaderDownloader.takeHeaders]
  unfold SessionInv at hinv ⊢
  change match session.base with | none => _ | some (hash, height) => _
  rcases hbase : session.base with _ | ⟨hash, height⟩
  · rw [hbase] at hinv
    exact ⟨hchain.trans hinv.chain, hinv.passedAt, hinv.expected, hinv.known⟩
  · rw [hbase] at hinv
    exact hinv.congr hchain rfl rfl rfl rfl

theorem sessionInv_clear (crypto : Crypto) (rank : Hash → Nat) (session : DownloadSession) :
    SessionInv crypto rank (session.step crypto .clear) :=
  ⟨rfl, rfl, rfl, rfl⟩

theorem sessionInv_resumeFrom (crypto : Crypto) (rank : Hash → Nat)
    (session : DownloadSession) (hash : Hash) (height : Nat) :
    SessionInv crypto rank (session.step crypto (.resumeFrom hash height)) := by
  refine ⟨trivial, ?_, ?_, rfl, rfl, rfl⟩
  · simp [Acyclic, DownloadSession.chain, DownloadSession.step, resumeFrom]
  · simp [DownloadSession.step, resumeFrom]

end Session

/-- Over every run the headers held or handed out are one chain from the resume point, and
each was checked at its height, counted up to the last `u64`. -/
theorem header_chain (crypto : Crypto) (rank : Hash → Nat) (maxHeaders ah : Nat)
    (ops : List DownloadOp)
    (hheaders : ∀ clock headers localTip localHeight,
      .acceptHeaders clock headers localTip localHeight ∈ ops → Acyclic crypto rank headers) :
    OneChain crypto ((DownloadSession.start ((HeaderDownloader.new
      maxHeaders).setBlockSignatureActivationHeight ah)).run crypto ops) := by
  suffices hinv : SessionInv crypto rank ((DownloadSession.start ((HeaderDownloader.new
      maxHeaders).setBlockSignatureActivationHeight ah)).run crypto ops) from
    oneChain_of_sessionInv hinv
  induction ops using List.reverseRecOn with
  | nil => exact ⟨rfl, rfl, rfl, rfl⟩
  | append_singleton ops op ih =>
      have hbefore := ih fun clock headers localTip localHeight hmem =>
        hheaders clock headers localTip localHeight (List.mem_append_left _ hmem)
      rw [DownloadSession.run, List.foldl_append]
      cases op with
      | acceptHeaders clock headers localTip localHeight =>
          exact hbefore.acceptHeaders clock
            (hheaders clock headers localTip localHeight (by simp)) localTip localHeight
      | takeHeaders count => exact hbefore.takeHeaders count
      | clear => exact sessionInv_clear crypto rank _
      | resumeFrom hash height => exact sessionInv_resumeFrom crypto rank _ hash height

def sampleLink (prevHash : Hash) : BlockHeader where
  version := 2
  prevHash := prevHash
  merkleRoot := ⟨0⟩
  presenceRoot := ⟨0⟩
  genesisHash := ⟨0⟩
  timestamp := 0
  slot := 1
  producer := ⟨0⟩
  vdfOutput := []
  vdfProof := List.replicate 64 1
  missedProducers := []
  dataRoot := ⟨0⟩
  forkId := ⟨0⟩

def sampleFirst : BlockHeader := sampleLink ⟨0⟩

def sampleSecond : BlockHeader := sampleLink (sampleFirst.hash sampleCrypto.blake3)

def sampleRank (hash : Hash) : Nat :=
  if hash = ⟨0⟩ then 0 else if hash = sampleFirst.hash sampleCrypto.blake3 then 1 else 2

theorem header_chain_overlap :
    OneChain sampleCrypto ((DownloadSession.start ((HeaderDownloader.new
      10).setBlockSignatureActivationHeight 7)).run sampleCrypto
        [.acceptHeaders (fun _ => 0) [sampleFirst] ⟨0⟩ 5, .takeHeaders 1,
          .acceptHeaders (fun _ => 0) [sampleFirst, sampleSecond] ⟨0⟩ 5]) := by
  have hfirst : Acyclic sampleCrypto sampleRank [sampleFirst] := by
    unfold Acyclic
    decide +kernel
  have hboth : Acyclic sampleCrypto sampleRank [sampleFirst, sampleSecond] := by
    unfold Acyclic
    decide +kernel
  refine header_chain sampleCrypto sampleRank 10 7 _ ?_
  intro clock headers localTip localHeight hmem
  rcases List.mem_cons.mp hmem with heq | hmem
  · injection heq with _ hbatch
    rw [hbatch]
    exact hfirst
  · rcases List.mem_cons.mp hmem with heq | hmem
    · injection heq
    · injection List.mem_singleton.mp hmem with _ hbatch
      rw [hbatch]
      exact hboth

/-- The height after the last one is the last one again. -/
theorem header_height_saturates :
    ¬∀ (crypto : Crypto) (rank : Hash → Nat) (ops : List DownloadOp),
      (∀ clock headers localTip localHeight,
        .acceptHeaders clock headers localTip localHeight ∈ ops →
          Acyclic crypto rank headers) →
      let session := (DownloadSession.start (.new 10)).run crypto ops
      ∀ hash height, session.base = some (hash, height) →
        session.passedAt = (List.range session.chain.length).map (height + · + 1) := by
  intro hheights
  have hfound := hheights sampleCrypto sampleRank
    [.acceptHeaders (fun _ => 0) [sampleFirst] ⟨0⟩ (2 ^ 64 - 1)]
    (by
      intro clock headers localTip localHeight hmem
      obtain ⟨-, rfl, -, -⟩ := DownloadOp.acceptHeaders.inj (List.mem_singleton.mp hmem)
      unfold Acyclic
      decide +kernel)
    ⟨0⟩ (2 ^ 64 - 1) (by decide +kernel)
  revert hfound
  decide +kernel

end Doli.Network
