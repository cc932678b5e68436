import RpcInGo.MiniRpc.Transport

/-!
`mini-rpc` from `Client.Call` to the handler and back: `client/client.go`, `server/server.go`,
`protocol/message.go` and the codec, on the transport of `MiniRpc.Transport`. The mutex of the
client puts its operations one after the other.

* `call_direct`: one call through a transport that delivers;
* `calls_direct`: any sequence of `Connect`, `Call` and `Close` returns what it would return if
  the handlers were called directly.
-/

namespace RpcInGo.MiniRpc.Calls
open Lib.ByteStream Protocol.Message Transport

variable {V S : Type}

structure Request (V : Type) where
  id : UInt64
  service : String
  method : String
  args : Option (List V)
  deriving DecidableEq, Repr

structure Response (V : Type) where
  id : UInt64
  error : String
  data : V
  deriving DecidableEq, Repr

def Response.isError (resp : Response V) : Bool := resp.error ≠ ""

/-- `codec.Codec` on requests and responses. Values come back as `settled`, since JSON does not
keep their types, and a response without data can always be encoded. An error is its text. -/
structure Codec (V : Type) where
  encodeRequest : Request V → Except String Bytes
  decodeRequest : Bytes → Except String (Request V)
  encodeResponse : Response V → Except String Bytes
  decodeResponse : Bytes → Except String (Response V)
  null : V
  settled : V → V
  request_back : ∀ {req bs}, encodeRequest req = .ok bs →
    decodeRequest bs = .ok { req with args := req.args.map (List.map settled) }
  response_back : ∀ {resp bs}, encodeResponse resp = .ok bs →
    decodeResponse bs = .ok { resp with data := settled resp.data }
  plain : ∀ id text, ∃ bs, encodeResponse ⟨id, text, null⟩ = .ok bs

/-! ## The server -/

/-- `ServiceFunc`, on a state of its own; of an error only the text is used. -/
abbrev ServiceFunc (V S : Type) := String → Option (List V) → S → (V × Option String) × S

abbrev Services (V S : Type) := List (String × ServiceFunc V S)

/-- `Register`; `none` is its panic. -/
def register (services : Services V S) (name : String) (handler : ServiceFunc V S) :
    Option (Services V S) :=
  match services.lookup name with
  | some _ => none
  | none => some ((name, handler) :: services)

def newResponse (id : UInt64) (data : V) (err : Option String) : Response V :=
  ⟨id, err.getD "", data⟩

section Server
variable (c : Codec V) (services : Services V S)

/-- `respData, _ := s.codec.Encode(resp)`. -/
def encoded (resp : Response V) : Bytes :=
  match c.encodeResponse resp with
  | .ok bs => bs
  | .error _ => []

def failure (id : UInt64) (text : String) : Bytes := encoded c (newResponse id c.null (some text))

def handleRequest : RequestHandler S := fun s data =>
  match c.decodeRequest data with
  | .error e => (failure c 0 ("decode request failed: " ++ e), s)
  | .ok req =>
    match services.lookup req.service with
    | none => (failure c req.id ("service " ++ req.service ++ " not found"), s)
    | some handler =>
      let ((result, err), s) := handler req.method req.args s
      match c.encodeResponse (newResponse req.id result err) with
      | .ok bs => (bs, s)
      | .error e => (failure c req.id ("encode response failed: " ++ e), s)

/-! ## The client -/

/-- The end of `Call`, once `Send` has returned. -/
def receive (id : UInt64) : Except GoError Bytes → Except GoError V
  | .error e => .error (.wrapf "failed to send request: %w" [] e)
  | .ok respData =>
    match c.decodeResponse respData with
    | .error e => .error (.wrapf "failed to decode response: %w" [] (.foreign e))
    | .ok resp =>
      if resp.id ≠ id then
        .error (.errorf "mismatched response ID: got %d, want %d"
          [.int resp.id.toNat, .int id.toNat])
      else if resp.isError then .error (.errorf "server error: %s" [.str resp.error])
      else .ok resp.data

/-- The connection of the client: what its two ends have not read yet. -/
structure Wire where
  serving : Bool
  requests : Bytes
  responses : Bytes
  deriving DecidableEq

/-- The client, and the state of the services behind it. -/
structure World (S : Type) where
  state : S
  connected : Bool
  conn : Option Wire
  deriving DecidableEq

def World.link (w : World S) (wire : Wire) : Link S :=
  ⟨w.state, wire.serving, wire.requests, wire.responses⟩

/-- The request gets its ID from a counter that other clients use as well. -/
inductive Op (V : Type)
  | connect (dial : Option String)
  | close (err : Option String)
  | call (net : Network) (req : Request V)

inductive Outcome (V : Type)
  | returned (err : Option GoError)
  | answered (res : Except GoError V)
  deriving DecidableEq, Repr

/-- `Client.Connect`. -/
def connect (addr : String) (w : World S) (dial : Option String) : World S × Option GoError :=
  if w.connected then (w, some (.errorf "already connected" []))
  else
    match dial with
    | some text => (w, some (.wrapf "transport connect failed: %w" []
        (.wrapf "connect to %s failed: %w" [.str addr] (.foreign text))))
    | none => ({ w with connected := true, conn := some ⟨true, [], []⟩ }, none)

/-- `Client.Close`; a connection that cannot be closed stays. -/
def close (w : World S) (err : Option String) : World S × Option GoError :=
  if w.connected then
    match w.conn, err with
    | none, _ => ({ w with connected := false }, none)
    | some _, none => ({ w with connected := false, conn := none }, none)
    | some _, some text => ({ w with connected := false },
        some (.wrapf "failed to close connection: %w" [] (.foreign text)))
  else (w, none)

/-- `Client.Call`, which does not ask whether the client is connected. -/
def call (w : World S) (net : Network) (req : Request V) : World S × Except GoError V :=
  match c.encodeRequest req with
  | .error e => (w, .error (.wrapf "failed to encode request: %w" [] (.foreign e)))
  | .ok data =>
    match w.conn with
    | none => (w, receive c req.id (send none data).1)
    | some wire =>
      let (x, link) := exchange (handleRequest c services) net (w.link wire) data
      ({ w with state := link.state, conn := some ⟨link.serving, link.requests, link.responses⟩ },
        receive c req.id x.result)

def step (addr : String) (w : World S) : Op V → World S × Outcome V
  | .connect dial => ((connect addr w dial).1, .returned (connect addr w dial).2)
  | .close err => ((close w err).1, .returned (close w err).2)
  | .call net req => ((call c services w net req).1, .answered (call c services w net req).2)

def run (addr : String) (w : World S) : List (Op V) → List (Outcome V)
  | [] => []
  | op :: ops =>
    (step c services addr w op).2 :: run addr (step c services addr w op).1 ops

/-! ## Direct calls -/

/-- What a call comes to without a transport. -/
def invoke (s : S) (req : Request V) : S × Except GoError V :=
  match services.lookup req.service with
  | none => (s, .error (.errorf "server error: %s"
      [.str ("service " ++ req.service ++ " not found")]))
  | some handler =>
    let ((result, err), s) := handler req.method (req.args.map (List.map c.settled)) s
    match c.encodeResponse (newResponse req.id result err) with
    | .error e => (s, .error (.errorf "server error: %s" [.str ("encode response failed: " ++ e)]))
    | .ok _ =>
      match err with
      | none => (s, .ok (c.settled result))
      -- an error without a text is no error to the client
      | some text =>
        if text = "" then (s, .ok (c.settled result))
        else (s, .error (.errorf "server error: %s" [.str text]))

/-- A client that calls the handlers itself; `conn` says whether there is a connection. -/
structure Direct (S : Type) where
  state : S
  connected : Bool
  conn : Bool
  deriving DecidableEq

def Direct.connect (addr : String) (d : Direct S) (dial : Option String) :
    Direct S × Option GoError :=
  if d.connected then (d, some (.errorf "already connected" []))
  else
    match dial with
    | some text => (d, some (.wrapf "transport connect failed: %w" []
        (.wrapf "connect to %s failed: %w" [.str addr] (.foreign text))))
    | none => ({ d with connected := true, conn := true }, none)

def Direct.close (d : Direct S) (err : Option String) : Direct S × Option GoError :=
  if d.connected then
    match d.conn, err with
    | true, some text => ({ d with connected := false },
        some (.wrapf "failed to close connection: %w" [] (.foreign text)))
    | _, _ => ({ d with connected := false, conn := false }, none)
  else (d, none)

def Direct.call (d : Direct S) (req : Request V) : Direct S × Except GoError V :=
  match c.encodeRequest req with
  | .error e => (d, .error (.wrapf "failed to encode request: %w" [] (.foreign e)))
  | .ok _ =>
    if d.conn then ({ d with state := (invoke c services d.state req).1 },
      (invoke c services d.state req).2)
    else (d, .error (.wrapf "failed to send request: %w" []
      (.errorf "not connected to server, call Connect() first" [])))

def Direct.step (addr : String) (d : Direct S) : Op V → Direct S × Outcome V
  | .connect dial => ((d.connect addr dial).1, .returned (d.connect addr dial).2)
  | .close err => ((d.close err).1, .returned (d.close err).2)
  | .call _ req => ((d.call c services req).1, .answered (d.call c services req).2)

def Direct.run (addr : String) (d : Direct S) : List (Op V) → List (Outcome V)
  | [] => []
  | op :: ops =>
    (Direct.step c services addr d op).2 ::
      Direct.run addr (Direct.step c services addr d op).1 ops

/-- The transport delivers in this operation: request and response are within the limit, `Send`
succeeds, and reads the length of the response at once. -/
def Delivers (w : World S) : Op V → Prop
  | .call net req => ∀ data wire, c.encodeRequest req = .ok data → w.conn = some wire →
      data.length ≤ maxMessageSize ∧
      (handleRequest c services w.state data).1.length ≤ maxMessageSize ∧
      (exchange (handleRequest c services) net (w.link wire) data).1.Whole ∧
      ∃ out, (exchange (handleRequest c services) net (w.link wire) data).1.result = .ok out
  | _ => True

def DeliversAll (addr : String) (w : World S) : List (Op V) → Prop
  | [] => True
  | op :: ops =>
    Delivers c services w op ∧ DeliversAll addr (step c services addr w op).1 ops

end Server

section Proofs
variable {c : Codec V} {services : Services V S} {addr : String} {w : World S} {d : Direct S}
  {s : S} {req : Request V} {data : Bytes} {net : Network} {wire : Wire} {op : Op V}
  {ops : List (Op V)}

/-- A failure that the server reports with the ID of the request reaches the caller. -/
theorem receive_failure (id : UInt64) {text : String} (htext : text ≠ "") :
    receive c id (.ok (failure c id text)) =
      .error (.errorf "server error: %s" [.str text]) := by
  obtain ⟨bs, hbs⟩ := c.plain id text
  have hencoded : failure c id text = bs := by
    simp [failure, encoded, newResponse, hbs]
  rw [hencoded, receive, c.response_back hbs]
  simp [Response.isError, htext]

theorem receive_response {result : V} {err : Option String} {bs : Bytes} (id : UInt64)
    (h : c.encodeResponse (newResponse id result err) = .ok bs) :
    receive c id (.ok bs) =
      match err with
      | none => .ok (c.settled result)
      | some text =>
        if text = "" then .ok (c.settled result)
        else .error (.errorf "server error: %s" [.str text]) := by
  rw [receive, c.response_back h]
  cases err with
  | none => simp [newResponse, Response.isError]
  | some text => by_cases htext : text = "" <;> simp [newResponse, Response.isError, htext]

/-- The response of the server to an encoded request, read by the client, is the direct call. -/
theorem handle_receive (h : c.encodeRequest req = .ok data) :
    ((handleRequest c services s data).2,
      receive c req.id (.ok (handleRequest c services s data).1)) = invoke c services s req := by
  unfold handleRequest invoke
  rw [c.request_back h]
  simp only
  cases services.lookup req.service with
  | none => simp only [receive_failure req.id (by simp : "service " ++ req.service ++
      " not found" ≠ "")]
  | some handler =>
    simp only
    rcases hcall : handler req.method (req.args.map (List.map c.settled)) s with
      ⟨⟨result, err⟩, s'⟩
    simp only
    cases henc : c.encodeResponse (newResponse req.id result err) with
    | error e => simp only [receive_failure req.id (by simp : "encode response failed: " ++ e ≠ "")]
    | ok bs =>
      simp only [receive_response req.id henc]
      cases err with
      | none => rfl
      | some text => by_cases htext : text = "" <;> simp [htext]

/-- The client and the direct client agree, and nothing is under way. -/
structure Matches (w : World S) (d : Direct S) : Prop where
  state : w.state = d.state
  connected : w.connected = d.connected
  conn : w.conn.isSome = d.conn
  clear : ∀ wire, w.conn = some wire → wire.requests = [] ∧ wire.responses = []

theorem connect_direct (addr : String) (dial : Option String) (hm : Matches w d) :
    Matches (connect addr w dial).1 (d.connect addr dial).1 ∧
      (connect addr w dial).2 = (d.connect addr dial).2 := by
  unfold connect Direct.connect
  rw [hm.connected]
  split
  · exact ⟨hm, rfl⟩
  · cases dial with
    | some text => exact ⟨hm, rfl⟩
    | none =>
      refine ⟨⟨hm.state, rfl, rfl, fun wire hwire => ?_⟩, rfl⟩
      cases hwire
      exact ⟨rfl, rfl⟩

theorem close_direct (err : Option String) (hm : Matches w d) :
    Matches (close w err).1 (d.close err).1 ∧ (close w err).2 = (d.close err).2 := by
  obtain ⟨s, connected, conn⟩ := w
  obtain ⟨s', connected', conn'⟩ := d
  obtain ⟨rfl, rfl, rfl, hclear⟩ := hm
  unfold close Direct.close
  cases connected with
  | false => exact ⟨⟨rfl, rfl, rfl, hclear⟩, rfl⟩
  | true =>
    cases conn with
    | none => exact ⟨⟨rfl, rfl, rfl, by simp⟩, rfl⟩
    | some wire =>
      cases err with
      | none => exact ⟨⟨rfl, rfl, rfl, by simp⟩, rfl⟩
      | some text => exact ⟨⟨rfl, rfl, rfl, hclear⟩, rfl⟩

/-- One call through a transport that delivers. -/
theorem call_direct (hm : Matches w d) (h : Delivers c services w (.call net req)) :
    Matches (call c services w net req).1 (d.call c services req).1 ∧
      (call c services w net req).2 = (d.call c services req).2 := by
  unfold call Direct.call
  cases henc : c.encodeRequest req with
  | error e => exact ⟨hm, rfl⟩
  | ok data =>
    have hconn := hm.conn
    cases hw : w.conn with
    | none =>
      rw [hw] at hconn
      simp only [← hconn, Option.isSome_none, Bool.false_eq_true, ↓reduceIte]
      exact ⟨hm, rfl⟩
    | some wire =>
      obtain ⟨hreq, hresp, hwhole, out, hok⟩ := h data wire henc hw
      obtain ⟨hrequests, hresponses⟩ := hm.clear wire hw
      have hlink : w.link wire = ⟨w.state, wire.serving, [], []⟩ := by
        rw [World.link, hrequests, hresponses]
      rw [hlink] at hwhole hok
      obtain ⟨⟨hresult, -⟩, serving', hafter⟩ := exchange_successful hreq hresp hwhole hok
      have hinvoke : ((handleRequest c services w.state data).2, receive c req.id
          (.ok (handleRequest c services w.state data).1)) = invoke c services d.state req := by
        rw [hm.state]
        exact handle_receive henc
      rw [hw] at hconn
      simp only [← hconn, Option.isSome_some, ↓reduceIte, hlink, hafter, hresult, ← hinvoke]
      refine ⟨⟨rfl, hm.connected, rfl, fun wire' hwire' => ?_⟩, trivial⟩
      cases hwire'
      exact ⟨rfl, rfl⟩

theorem step_direct (addr : String) (hm : Matches w d) (h : Delivers c services w op) :
    Matches (step c services addr w op).1 (Direct.step c services addr d op).1 ∧
      (step c services addr w op).2 = (Direct.step c services addr d op).2 := by
  cases op with
  | connect dial =>
    obtain ⟨hm', heq⟩ := connect_direct addr dial hm
    exact ⟨hm', congrArg _ heq⟩
  | close err =>
    obtain ⟨hm', heq⟩ := close_direct err hm
    exact ⟨hm', congrArg _ heq⟩
  | call net req =>
    obtain ⟨hm', heq⟩ := call_direct hm h
    exact ⟨hm', congrArg _ heq⟩

theorem run_direct (hm : Matches w d) (h : DeliversAll c services addr w ops) :
    run c services addr w ops = Direct.run c services addr d ops := by
  induction ops generalizing w d with
  | nil => rfl
  | cons op ops ih =>
    obtain ⟨hop, hops⟩ := h
    obtain ⟨hm', heq⟩ := step_direct addr hm hop
    rw [run, Direct.run, heq, ih hm' hops]

end Proofs

/-- A client that has not been connected yet. -/
def newClient (s : S) : World S := ⟨s, false, none⟩

/-- Whatever the order of `Connect`, `Call` and `Close`, and whichever of them fail: as long as the
transport delivers, every operation returns what it would return if the handlers were called
directly, one call after the other, with the arguments as the codec settles them. -/
theorem calls_direct {c : Codec V} {services : Services V S} {addr : String} (s : S)
    {ops : List (Op V)} (h : DeliversAll c services addr (newClient s) ops) :
    run c services addr (newClient s) ops =
      Direct.run c services addr ⟨s, false, false⟩ ops :=
  run_direct ⟨rfl, rfl, rfl, by simp [newClient]⟩ h

/-! ## A codec for requests without arguments -/

def putText (text : List Char) : Bytes := text.flatMap fun ch => putBE 4 ch.toNat

def getText : Bytes → Except String (List Char)
  | [] => .ok []
  | a :: b :: c :: d :: rest => (getText rest).map (Char.ofNat (getBE [a, b, c, d]) :: ·)
  | _ => .error "unexpected end"

theorem getText_putText (text : List Char) : getText (putText text) = .ok text := by
  induction text with
  | nil => rfl
  | cons ch text ih =>
    have hlt : ch.toNat < 256 ^ 4 := ch.val.toNat_lt
    have hch : Char.ofNat (getBE (putBE 4 ch.toNat)) = ch := by
      rw [getBE_putBE, Nat.mod_eq_of_lt hlt, Char.ofNat_toNat]
    have hcons : putText (ch :: text) = putBE 4 ch.toNat ++ putText text := rfl
    simp only [putBE, List.nil_append, List.cons_append] at hch hcons
    rw [hcons, getText, ih, hch]
    rfl

def putID (id : UInt64) : Bytes := putBE 8 id.toNat

def getID (bs : Bytes) : UInt64 := UInt64.ofNat (getBE (bs.take 8))

theorem getID_putID (id : UInt64) (rest : Bytes) : getID (putID id ++ rest) = id := by
  rw [getID, putID, List.take_left' (putBE_length _ _), getBE_putBE,
    Nat.mod_eq_of_lt (show id.toNat < 256 ^ 8 from id.toNat_lt), UInt64.ofNat_toNat]

theorem drop_putID (id : UInt64) (rest : Bytes) : (putID id ++ rest).drop 8 = rest :=
  List.drop_left' (putBE_length _ _)

/-- The values are `false`, which is nil, and `true`. -/
def plainCodec : Codec Bool where
  encodeRequest req :=
    if req.method = "" ∧ req.args = none then .ok (putID req.id ++ putText req.service.toList)
    else .error "unsupported value"
  decodeRequest bs := (getText (bs.drop 8)).map fun text =>
    ⟨getID bs, String.ofList text, "", none⟩
  encodeResponse resp :=
    .ok (putID resp.id ++ (if resp.data then 1 else 0) :: putText resp.error.toList)
  decodeResponse bs :=
    match bs.drop 8 with
    | [] => .error "unexpected end"
    | d :: rest => (getText rest).map fun text => ⟨getID bs, String.ofList text, d ≠ 0⟩
  null := false
  settled v := v
  request_back {req bs} h := by
    split at h
    · rename_i hreq
      cases h
      obtain ⟨id, service, method, args⟩ := req
      obtain ⟨rfl, rfl⟩ := hreq
      simp [drop_putID, getID_putID, getText_putText, Except.map]
    · cases h
  response_back {resp bs} h := by
    cases h
    obtain ⟨id, error, data⟩ := resp
    cases data <;> simp [drop_putID, getID_putID, getText_putText, Except.map]
  plain id text := ⟨_, rfl⟩

instance (x : Exchange) : Decidable x.Whole :=
  inferInstanceAs (Decidable (ready 4 x.arrived = 4))

/-- Counts its calls, and refuses all but the first. -/
def counter : ServiceFunc Bool Nat := fun _ _ n =>
  ((true, if n = 0 then none else some "busy"), n + 1)

def services : Services Bool Nat := (register [] "counter" counter).getD []

/-- A call that succeeds, one that fails, one to no service, and one after `Close`. -/
def someCalls : List (Op Bool) :=
  [.connect none, .call (quiet .whole) ⟨1, "counter", "", none⟩,
    .call (quiet .whole) ⟨2, "counter", "", none⟩, .call (quiet .whole) ⟨3, "none", "", none⟩,
    .close none, .call (quiet .whole) ⟨4, "counter", "", none⟩]

theorem someCalls_deliver :
    DeliversAll plainCodec services "localhost" (newClient 0) someCalls := by
  refine ⟨trivial, ?_, ?_, ?_, trivial, ?_, trivial⟩
  all_goals
    intro data wire hdata hwire
    cases hdata
    cases hwire
  all_goals exact ⟨by decide +kernel, by decide +kernel, by decide +kernel, _, rfl⟩

theorem calls_direct_someCalls :
    run plainCodec services "localhost" (newClient 0) someCalls =
      [.returned none, .answered (.ok true),
        .answered (.error (.errorf "server error: %s" [.str "busy"])),
        .answered (.error (.errorf "server error: %s" [.str "service none not found"])),
        .returned none, .answered (.error (.wrapf "failed to send request: %w" []
          (.errorf "not connected to server, call Connect() first" [])))] :=
  (calls_direct 0 someCalls_deliver).trans rfl

end RpcInGo.MiniRpc.Calls
