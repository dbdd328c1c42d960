/-
# Nl80211.Iw.Command — how `iw` runs a command.

`__handle_cmd` builds a message, lets the command put its attributes, sends it and reads until the
answer has ended.  A command is what the handler of the command contributes: attributes, and the
function it registers for the data messages.  The search for the command in the argument list comes
before all this and is not part of it.
-/
import Nl80211.Libnl.Compose
import Nl80211.Libnl.Exchange
import Nl80211.Libnl.Resolve
import Mathlib

namespace Nl80211.Iw

open Lib Lib.Bytes Libnl

def eproto : Int := 71
def enobufs : Int := 105
def nl80211AttrWiphy : UInt16 := 1
def nl80211AttrIfindex : UInt16 := 3
def nl80211AttrWdev : UInt16 := 153

/-- `command_idby`, and the `devidx` of what a command is for. -/
inductive CommandIdby where
  | none
  | phy (devidx : Nat)
  | netdev (devidx : Nat)
  | wdev (devidx : Nat)
  deriving DecidableEq, Repr

/-- The switch of `__handle_cmd`: the attribute that names the device, before others. -/
def CommandIdby.put : CommandIdby → Attrs → Attrs
  | .none, rest => rest
  | .phy devidx, rest => .put nl80211AttrWiphy (le32 devidx) rest
  | .netdev devidx, rest => .put nl80211AttrIfindex (le32 devidx) rest
  | .wdev devidx, rest => .put nl80211AttrWdev (le64 devidx) rest

/-- A command: what it is for, the fields `cmd` and `nl_msg_flags` of `struct cmd`, the attributes
that its handler puts, and the function that it registers.  That function returns nothing where C
does not define what it does. -/
structure Cmd (τ : Type) where
  idby : CommandIdby
  cmd : UInt8
  flags : UInt16
  attrs : Attrs
  registered : Mem → τ → Option (Int × τ)

/-- What the commands of one process share: `state->nl80211_id`, and whether there is memory for a
message and its callbacks.  The headers fit the block of a message, which is a page. -/
structure Env extends Peer where
  nl80211Id : UInt16
  memory : Bool := true
  headers : nlmsgHdrlen + genlHdrlen ≤ block.length

/-- Where the process does not come back from: a `recvmsg` that blocks, or what C
does not define. -/
inductive Halt where
  | blocked
  | undefined

/-- Code that works on the socket and on the state of the registered handlers. -/
abbrev Run (τ : Type) := EStateM Halt (RecvState τ)

variable {τ : Type}

/-! ## The handlers -/

/-- `error_handler`: the action and `*ret`.  Callers expect negative error codes. -/
def errorHandler (error : Int) : Int × Int :=
  if 0 < error then (nlStop, -eproto) else (nlStop, error)

/-- `finish_handler`. -/
def finishHandler : Int × Int := (nlSkip, 0)

/-- `ack_handler`. -/
def ackHandler : Int × Int := (nlStop, 0)

/-- `valid_handler`.  The state is gone from the moment on where the registered handler has done
what C does not define. -/
def Cmd.validHandler (c : Cmd τ) (msg : Mem) (u : Int × Option τ) : Int × (Int × Option τ) :=
  match u.2.bind (c.registered msg) with
  | some r => (r.1, (u.1, some r.2))
  | none => (nlSkip, (u.1, none))

/-- The callback set of a command; `err` stands before the state of the registered handler. -/
def Cmd.cb (c : Cmd τ) : NlCb (Int × Option τ) where
  cbSet
    | .valid => some c.validHandler
    | .finish => some fun _ u => (finishHandler.1, (finishHandler.2, u.2))
    | .ack => some fun _ u => (ackHandler.1, (ackHandler.2, u.2))
    | _ => none
  cbErr := some fun msg u =>
    ((errorHandler (nlmsgerrError msg 0)).1, ((errorHandler (nlmsgerrError msg 0)).2, u.2))

/-! ## `__handle_cmd` -/

/-- `err = 1; while (err > 0) nl_recvmsgs(state->nl_sock, cb);` -/
def readAnswer (page : Nat) (c : Cmd τ) : Run τ Int := fun st =>
  match recvWhile c.cb page Prod.fst ⟨st.sk, st.queue, (1, some st.user)⟩ with
  | none => .error .blocked st
  | some st' =>
      match st'.user.2 with
      | some user => .ok st'.user.1 ⟨st'.sk, st'.queue, user⟩
      | none => .error .undefined st

/-- `__handle_cmd`. -/
def handleCmd (env : Env) (c : Cmd τ) : Run τ Int := do
  if ¬ env.memory then return 2
  match Attrs.message env.block ⟨env.nl80211Id, c.flags, 0, 0⟩ c.cmd 0 (c.idby.put .nil) with
  | none => return 2
  | some msg =>
      match c.attrs.compose msg with
      | none => return -enobufs
      | some msg =>
          let msg ← modifyGet fun st =>
            let r := msg.nlSendAutoComplete env.pid netlinkGeneric false st.sk.seqNext
            (r.1, { st with sk := { st.sk with seqNext := r.2 } })
          match env.send msg.sent with
          | .error errno => return -nlSyserr2nlerr errno
          | .ok answer =>
              modify fun st => { st with queue := st.queue ++ answer }
              readAnswer env.page c

/-- One command after the other, on one socket. -/
def session (env : Env) : List (Cmd τ) → Run τ (List Int)
  | [] => return []
  | c :: cs => do
      let err ← handleCmd env c
      return err :: (← session env cs)

/-! ## What a command returns -/

/-- The error or the acknowledgement that an answer ends with, as the caller gets it. -/
def verdict (t : NetMsg) : Int :=
  if t.type = nlmsgDone then 0
  else if nlmsgerrError t.octets 0 = 0 then 0
  else (errorHandler (nlmsgerrError t.octets 0)).2

theorem verdict_le (t : NetMsg) : verdict t ≤ 0 := by
  unfold verdict errorHandler eproto
  split_ifs <;> simp_all

/-- A command whose handler neither stops nor fails. -/
def Cmd.Goes (c : Cmd τ) : Prop :=
  ∀ msg u r, c.registered msg u = some r → r.1 = nlOk ∨ r.1 = nlSkip

/-- The data messages, handed over one by one for as long as the handler gets through them. -/
def Cmd.handed (c : Cmd τ) : List NetMsg → τ → Option τ
  | [], u => some u
  | m :: ms, u => (c.registered m.image u).bind fun r => c.handed ms r.2

/-- What the callbacks of a command do at the end of an answer. -/
abbrev ends (t : NetMsg) (u : Int × Option τ) : Int × Option τ :=
  closing (fun u : Int × Option τ => (0, u.2)) (fun u => (0, u.2)) (fun e u =>
    ((errorHandler e).2, u.2))
    t u

theorem ends_eq (t : NetMsg) (u : Int × Option τ) : ends t u = (verdict t, u.2) := by
  unfold ends closing verdict
  split_ifs <;> rfl

theorem Cmd.cb_hears (c : Cmd τ) (hc : c.Goes) :
    CmdCb c.cb c.validHandler (fun u => (0, u.2)) (fun u => (0, u.2))
      fun e u => ((errorHandler e).2, u.2) where
  goes := by
    intro msg u
    unfold Cmd.validHandler
    split
    · next r hr =>
        obtain ⟨st, -, hst⟩ := Option.bind_eq_some_iff.mp hr
        exact hc msg st r hst
    · exact .inr rfl
  valid := rfl
  finish := rfl
  ack := rfl
  unset := by
    intro t hvalid hfinish hack
    cases t with
    | valid => exact absurd rfl hvalid
    | finish => exact absurd rfl hfinish
    | ack => exact absurd rfl hack
    | overrun | skipped | msgIn | invalid | seqCheck | sendAck => rfl
  err := by
    refine congrArg some (funext fun msg => funext fun u => ?_)
    unfold errorHandler
    split_ifs <;> rfl

/-- The registered handler is handed the messages; `err` stays as it is. -/
theorem handOver_cb (c : Cmd τ) (ms : List NetMsg) (err : Int) (u : Option τ) :
    handOver c.validHandler ms (err, u) = (err, u.bind (c.handed ms)) := by
  induction ms generalizing u with
  | nil =>
      cases u <;> rfl
  | cons m ms ih =>
      show handOver c.validHandler ms (c.validHandler m.image (err, u)).2 = _
      have hnext : (c.validHandler m.image (err, u)).2 =
          (err, (u.bind (c.registered m.image)).map Prod.snd) := by
        unfold Cmd.validHandler
        cases u.bind (c.registered m.image) <;> rfl
      rw [hnext, ih]
      cases u with
      | none => rfl
      | some u =>
          show (err, ((c.registered m.image u).map Prod.snd).bind (c.handed ms)) = _
          rw [Option.bind_map]
          rfl

/-- The answer is read to its end, unless the handler does not get through it. -/
theorem readAnswer_ends (c : Cmd τ) (hc : c.Goes) {seq : UInt32} (a : Answer seq) {page : Nat}
    (hcloses : a.terminator.Closes) (hfits : a.Fits page) (rest : List Incoming) {sk : NlSock}
    (hseq : sk.seqExpect = seq) (u : τ) :
    readAnswer page c ⟨sk, incoming a.parcels ++ rest, u⟩ =
      match c.handed (a.delivered page) u with
      | some u' => .ok (verdict a.terminator) ⟨{ sk with seqExpect := sk.seqExpect + 1 }, rest, u'⟩
      | none => .error .undefined ⟨sk, incoming a.parcels ++ rest, u⟩ := by
  subst hseq
  have hends (t : NetMsg) (u : Int × Option τ) : (ends t u).1 ≤ 0 := by
    rw [ends_eq]
    exact verdict_le t
  have hloop : recvWhile c.cb page Prod.fst ⟨sk, incoming a.parcels ++ rest, (1, some u)⟩ =
      some ⟨{ sk with seqExpect := sk.seqExpect + 1 }, rest,
        ends a.terminator (1, c.handed (a.delivered page) u)⟩ := by
    rw [recvWhile_ends (c.cb_hears hc) (fun m u => ?_) hends a hcloses hfits rest rfl Int.one_pos,
      handOver_cb, Option.bind_some]
    unfold Cmd.validHandler
    split <;> rfl
  rw [ends_eq] at hloop
  unfold readAnswer
  rw [hloop]

/-! ## Sessions -/

/-- A kernel that answers every request, and the end of every answer arrives. -/
structure Serves (env : Env) (reply : (req : Mem) → Answer (nlmsgSeq req 0)) : Prop where
  send : ∀ req, env.send req = .ok (incoming (reply req).parcels)
  closes : ∀ req, (reply req).terminator.Closes
  fits : ∀ req, (reply req).Fits env.page

/-- Room for the message of a command, and a handler that neither stops nor fails. -/
structure Cmd.Room (env : Env) (c : Cmd τ) : Prop where
  goes : c.Goes
  fits : (c.idby.put c.attrs).Fits env.block.length (nlmsgHdrlen + genlHdrlen)

/-- The request of a command, as it goes out with the number `seq`. -/
def Cmd.request (env : Env) (c : Cmd τ) (seq : UInt32) : Mem :=
  (NlMsg.completed ⟨env.nl80211Id, c.flags, 0, 0⟩ env.pid false seq).octets
    ([c.cmd, 0, 0, 0] ++ (c.idby.put c.attrs).octets)

theorem request_seq (env : Env) (c : Cmd τ) (seq : UInt32) :
    nlmsgSeq (c.request env seq) 0 = seq := by
  unfold Cmd.request Nlmsghdr.octets
  rw [((NlMsg.completed ⟨env.nl80211Id, c.flags, 0, 0⟩ env.pid false seq).front_read _ _).2.2.1]
  show (if (0 : UInt32) = 0 then seq else 0) = seq
  exact if_pos rfl

/-- What a session comes to: each command gets the answer to its own request.  Nothing comes of one
whose handler does not get through an answer. -/
def served (env : Env) (reply : (req : Mem) → Answer (nlmsgSeq req 0)) :
    List (Cmd τ) → UInt32 → τ → Option (List Int × τ)
  | [], _, u => some ([], u)
  | c :: cs, seq, u => do
      let a := reply (c.request env seq)
      let u ← c.handed (a.delivered env.page) u
      let r ← served env reply cs (seq + 1) u
      return (verdict a.terminator :: r.1, r.2)

/-- A socket whose counters agree. -/
abbrev inStep (seq : UInt32) (queue : List Incoming) (u : τ) : RecvState τ := ⟨⟨seq, seq⟩, queue, u⟩

section Served

variable {env : Env} {reply : (req : Mem) → Answer (nlmsgSeq req 0)}

/-- The attributes of a message can be put in two goes: the device, and the rest. -/
theorem message_put (block : Mem) (hdr : Nlmsghdr) (cmd version : UInt8) (idby : CommandIdby)
    (rest : Attrs) :
    Attrs.message block hdr cmd version (idby.put rest) =
      (Attrs.message block hdr cmd version (idby.put .nil)).bind rest.compose := by
  have hput (attrtype : UInt16) (data : Mem) :
      Attrs.message block hdr cmd version (.put attrtype data rest) =
        (Attrs.message block hdr cmd version (.put attrtype data .nil)).bind rest.compose := by
    unfold Attrs.message
    cases (NlMsg.nlmsgAllocSize block).genlmsgPut hdr 0 cmd version with
    | none => rfl
    | some m =>
        simp only [Attrs.compose]
        cases m.nlaPut attrtype.toNat data <;> rfl
  cases idby with
  | none =>
      show Attrs.message block hdr cmd version rest = (Attrs.message _ _ _ _ .nil).bind _
      unfold Attrs.message
      cases (NlMsg.nlmsgAllocSize block).genlmsgPut hdr 0 cmd version <;> rfl
  | phy devidx => exact hput _ _
  | netdev devidx => exact hput _ _
  | wdev devidx => exact hput _ _

/-- A command gets the answer to its request, and the socket is in step again. -/
theorem handleCmd_served (hserves : Serves env reply) (hmem : env.memory = true)
    (hblock : env.block.length < 65536) {c : Cmd τ} (hc : c.Room env) (seq : UInt32) (u : τ) :
    let a := reply (c.request env seq)
    match c.handed (a.delivered env.page) u with
    | some u' => handleCmd env c (inStep seq [] u) = .ok (verdict a.terminator)
      (inStep (seq + 1) [] u')
    | none => ∃ st, handleCmd env c (inStep seq [] u) = .error .undefined st := by
  intro a
  obtain ⟨msg, hmsg, hholds⟩ :=
    Attrs.message_holds ⟨env.nl80211Id, c.flags, 0, 0⟩ c.cmd 0 env.headers
    hblock hc.fits
  obtain ⟨hdone, hcount⟩ :=
    NlMsg.nlSendAutoComplete_holds hholds env.pid netlinkGeneric false seq
  have hsent : (msg.nlSendAutoComplete env.pid netlinkGeneric false seq).1.sent =
      c.request env seq :=
    hdone.sent_eq
  have hsend : env.send (msg.nlSendAutoComplete env.pid netlinkGeneric false seq).1.sent =
      .ok (incoming a.parcels) := by
    rw [hsent]
    exact hserves.send _
  rw [message_put] at hmsg
  obtain ⟨first, hfirst, hrest⟩ := Option.bind_eq_some_iff.mp hmsg
  have hrun : handleCmd env c (inStep seq [] u) =
      readAnswer env.page c ⟨⟨seq + 1, seq⟩, incoming a.parcels, u⟩ := by
    unfold handleCmd
    simp only [hmem, not_true_eq_false, if_false, hfirst, hrest, bind, EStateM.bind, modifyGet,
      MonadStateOf.modifyGet, EStateM.modifyGet, hsend, hcount, if_true, modify, List.nil_append]
  have hread := @readAnswer_ends _ c hc.goes _ a env.page (hserves.closes _) (hserves.fits _) []
    ⟨seq + 1, seq⟩ (request_seq env c seq).symm u
  rw [List.append_nil, ← hrun] at hread
  cases hhanded : c.handed (a.delivered env.page) u with
  | none =>
      rw [hhanded] at hread
      exact ⟨_, hread⟩
  | some u' =>
      rw [hhanded] at hread
      exact hread

end Served

/-! A kernel that denies everything. -/

theorem error_closes (seq : UInt32) (n : Nat) : (NetMsg.error seq n).Closes := by
  refine .inr ⟨?_, ?_⟩
  · exact NetMsg.build_type (by decide) ..
  · show _ ≤ (buildOctets _ _ _ _).length
    rw [buildOctets_length]
    simp [nlmsgHdrlen, nlmsgerrSize]

theorem packOctets_error_length (seq : UInt32) (n : Nat) :
    (packOctets ([] ++ [.error seq n])).length = 36 := by
  simp [NetMsg.error, NetMsg.build, buildOctets_length, packOctets, nlmsgHdrlen, align4]

/-- `EPERM`. -/
def deny (req : Mem) : Answer (nlmsgSeq req 0) :=
  .single [] (.error _ 4294967295) (by rw [packOctets_error_length]; decide) (by simp)
    (NetMsg.build_seq ..)

def denyingEnv : Env where
  pid := 7
  block := List.replicate 64 170
  send := fun req => .ok (incoming (deny req).parcels)
  page := 16384
  nl80211Id := 28
  headers := by decide

/-- `NL80211_CMD_GET_INTERFACE`, counting the answers. -/
def countInterfaces (idby : CommandIdby) : Cmd Nat where
  idby := idby
  cmd := 5
  flags := 768
  attrs := .nil
  registered := fun _ n => some (nlSkip, n + 1)

end Nl80211.Iw
