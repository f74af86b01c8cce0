import Scripture.Model

set_option autoImplicit false

/- The producer that routes its frames over the candidates of a directory. One send makes a bounded
number of attempts; between two of them the route may be replaced, reordered or begun by the
endpoint that a refusal has named. -/
namespace Scripture.Routing

open ByteFormat

structure RankedCandidate where
  ownerId : String
  endpoint : String
  disposition : String
  claimsServing : Bool
  fresh : Bool
  ageMs : UInt64
  deriving DecidableEq

structure ProducerRoute where
  canon : String
  verse : String
  candidates : List RankedCandidate
  resolvedAtMs : UInt64
  deriving DecidableEq

def ProducerRoute.endpoints (route : ProducerRoute) : List String :=
  route.candidates.map RankedCandidate.endpoint

structure RecordId where
  bytes : FixedBytes 16
  deriving DecidableEq

structure CommittedAck where
  firstOffset : UInt64
  nextOffset : UInt64
  recordId : RecordId
  endpoint : String
  deriving DecidableEq

/-- A directory error is kept as its text. -/
inductive ProducerRoutingError where
  | directory (error : String)
  | noCandidates (canon verse : String)
  | payloadContainsNewline (recordId : RecordId)
  | exhausted (recordId : RecordId) (attempts : Nat) (lastFailure : String)
  | endpoint (reason : String)
  deriving DecidableEq

inductive AttemptFailure where
  | deposedWriter (detail : String)
  | transitioning (detail : String)
  | deadScribe (detail : String)
  | lostReply (detail : String)
  | other (detail : String)
  deriving DecidableEq

def AttemptFailure.detail : AttemptFailure → String
  | .deposedWriter detail | .transitioning detail | .deadScribe detail | .lostReply detail
  | .other detail => detail

def contains (text part : String) : Bool := decide (part.toList <:+: text.toList)

def stripPrefix (text head : String) : Option String :=
  if head.toList <+: text.toList then some (String.ofList (text.toList.drop head.toList.length))
  else none

def splitWhitespace (text : String) : List String :=
  ((text.toList.splitOnP isWhitespace).filter fun part => !part.isEmpty).map String.ofList

def deposedMarker : String := "NotEffectiveWriter \x7b state: \"Serving\" \x7d"
def transitioningMarker : String := "NotEffectiveWriter \x7b state: \"Transitioning\" \x7d"

/-- The endpoint that a refusal names, if it names one. -/
def redirectFromErrLine (line : String) : Option String :=
  (splitWhitespace line).findSome? fun token => stripPrefix token "serving-endpoint="

def classifyErrLine (line : String) : AttemptFailure :=
  if contains line deposedMarker then .deposedWriter line
  else if contains line transitioningMarker then .transitioning line
  else .other line

/-- `str::parse` to a `u64`. -/
def parseU64 (text : String) : Option UInt64 :=
  let digits := match text.toList with
    | '+' :: digits => digits
    | digits => digits
  if digits.isEmpty || digits.any (fun digit => !digit.isDigit) then none
  else
    let value := Nat.ofDigitChars 10 digits 0
    if value < 2 ^ 64 then some (UInt64.ofNat value) else none

def parseOk (line : String) : Option (UInt64 × UInt64) :=
  match splitWhitespace line with
  | ["OK", first, next] => do
      let first ← parseU64 first
      let next ← parseU64 next
      return (first, next)
  | _ => none

/-- What comes of a dial: where it breaks off, or the line that is read. -/
inductive Exchange where
  | connectFailed (error : String)
  | connectTimeout
  | writeFailed (error : String)
  | flushFailed (error : String)
  | closed
  | line (text : String)
  | readFailed (error : String)
  | ackTimeout
  deriving DecidableEq

section

-- How `{:?}` renders a text.
variable (debug : String → String)

def dialAddress (endpoint : String) : Except String String :=
  let trimmed := trim endpoint
  let withoutScheme :=
    ((stripPrefix trimmed "tcp://").or (stripPrefix trimmed "TCP://")).getD trimmed
  if withoutScheme.isEmpty then .error s!"empty endpoint after parsing {debug endpoint}"
  else if !withoutScheme.toList.contains ':' then
    .error s!"endpoint {debug endpoint} is missing a port (expected host:port)"
  else .ok withoutScheme

def exchangeFrame (endpoint : String) (exchange : Exchange) :
    Except AttemptFailure (UInt64 × UInt64) :=
  match dialAddress debug endpoint with
  | .error reason => .error (.deadScribe reason)
  | .ok address =>
      match exchange with
      | .connectFailed error => .error (.deadScribe s!"connect {address}: {error}")
      | .connectTimeout => .error (.deadScribe s!"connect timeout to {address}")
      | .writeFailed error => .error (.deadScribe s!"write to {endpoint}: {error}")
      | .flushFailed error => .error (.deadScribe s!"flush to {endpoint}: {error}")
      | .closed =>
          .error (.lostReply s!"connection closed after send before ACK from {endpoint}")
      | .line text =>
          match parseOk (trimEnd text) with
          | some ack => .ok ack
          | none =>
              if "ERR ".toList <+: (trimEnd text).toList then
                .error (classifyErrLine (trimEnd text))
              else
                .error (.other s!"unexpected response from {endpoint}: {debug (trimEnd text)}")
      | .readFailed error => .error (.lostReply s!"ACK read from {endpoint}: {error}")
      | .ackTimeout => .error (.lostReply s!"ACK timeout from {endpoint}")

structure RoutingProducer where
  canon : String
  verse : String
  route : ProducerRoute
  nextCandidate : Nat

/-- A route that cannot be resolved leaves the producer with the one it has. -/
def RoutingProducer.refreshRoute (producer : RoutingProducer)
    (resolved : Except ProducerRoutingError ProducerRoute) : RoutingProducer :=
  match resolved with
  | .ok route => { producer with route := route, nextCandidate := 0 }
  | .error _ => producer

/-- What the surroundings hold ready for one turn of the loop: what comes of its dial, and what the
source of routes answers. -/
structure Round where
  exchange : Exchange
  resolved : Except ProducerRoutingError ProducerRoute

/-- An attempt that was made, with the candidates it chose from. -/
structure Attempt where
  candidates : List RankedCandidate
  endpoint : String
  exchange : Exchange

/-- The producer and the variables of `send_frame`. -/
structure Sending where
  producer : RoutingProducer
  tried : List String
  lastFailure : String

namespace Sending

/-- The endpoints tried so far count until every candidate has been tried. -/
def spare (sending : Sending) : List String :=
  if sending.producer.route.candidates.all fun candidate =>
    candidate.endpoint ∈ sending.tried then []
  else sending.tried

/-- The place of the best candidate not yet tried. -/
def nextCandidate (sending : Sending) : Nat :=
  (sending.producer.route.candidates.findIdx? fun candidate =>
    candidate.endpoint ∉ sending.spare).getD 0

def choose (sending : Sending) (endpoint : String) : Sending :=
  { sending with
    producer := { sending.producer with nextCandidate := sending.nextCandidate }
    tried := if endpoint ∈ sending.spare then sending.spare else sending.spare ++ [endpoint] }

def redirect (sending : Sending) (hint : String) : Sending :=
  { sending with producer.route.candidates :=
      ⟨"redirect", hint, "Serving", true, true, 0⟩ :: sending.producer.route.candidates }

def refresh (sending : Sending) (resolved : Except ProducerRoutingError ProducerRoute) : Sending :=
  { sending with producer := sending.producer.refreshRoute resolved }

def onFailure (sending : Sending) (failure : AttemptFailure)
    (resolved : Except ProducerRoutingError ProducerRoute) : Sending :=
  let failed := { sending with lastFailure := failure.detail }
  match failure with
  | .deposedWriter detail =>
      match redirectFromErrLine detail with
      | some hint => if hint ∉ failed.tried then failed.redirect hint else failed.refresh resolved
      | none => failed.refresh resolved
  | _ => failed.refresh resolved

end Sending

/-- What one turn of the loop comes to. -/
inductive Turn where
  | idle (next : Sending)
  | failed (attempt : Attempt) (next : Sending)
  | answered (attempt : Attempt) (producer : RoutingProducer) (ack : CommittedAck)

def Sending.noCandidates (sending : Sending) : Sending :=
  { sending with lastFailure := s!"no directory candidates for canon={sending.producer.canon} " ++
      s!"verse={sending.producer.verse}" }

/-- One turn. Without candidates there is none to choose, and the route is resolved again. -/
def Sending.turn (sending : Sending) (recordId : RecordId) (round : Round) : Turn :=
  match sending.producer.route.candidates[sending.nextCandidate]? with
  | none => .idle (sending.noCandidates.refresh round.resolved)
  | some candidate =>
      let chosen := sending.choose candidate.endpoint
      let attempt := ⟨sending.producer.route.candidates, candidate.endpoint, round.exchange⟩
      match exchangeFrame debug candidate.endpoint round.exchange with
      | .ok (firstOffset, nextOffset) =>
          .answered attempt chosen.producer ⟨firstOffset, nextOffset, recordId, candidate.endpoint⟩
      | .error failure => .failed attempt (chosen.onFailure failure round.resolved)

end

end Scripture.Routing
