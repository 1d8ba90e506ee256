import Bluefin.Tool.Pipe

/-!
# What arrives at the other end of two `run_pipe` loops

One task uses the connection, so that no `send` overlaps `close()`: the Fin of `a` keeps its
promise (`quiet_of_closing`) without any assumption on the run. A run of the two programs is
one of the connection (`net_step`), and what is known of those gives what the stdout of `b`
has of the stdin of `a`.
-/

namespace Bluefin
open Base

namespace Pipe
open Writer (Emission dataEmitted)
open Reader (ReadCall Reply handedOut)
open Barrier (sentBytes)

/-! ### One user of the writer -/

section

variable {srcConnId dstConnId : UInt32} {w w' : Writer.State}

theorem closing_refuse {pre post : List Writer.SendCall} {c : Writer.SendCall}
    (h : Writer.Closing w) (hsends : w.sends = pre ++ c :: post) (hpc : c.pc = .accounted) :
    Writer.Closing { w with sends := pre ++ { c with pc := .failed } :: post } := by
  have hidle := Writer.idle_of_active h (c := c) (by simp [hsends]) (.inl (by simp [hpc]))
  exact Writer.closing_idle hidle

/-- With no call overlapping `close()`, the flag is set in a quiet state. -/
theorem quiet_of_closing {st : Barrier.State} (hflow : Barrier.Flow st)
    (hclosing : Writer.Closing st.writer) (act : Barrier.Action) : Barrier.MarksQuiet st act := by
  cases act with
  | refuse i => trivial
  | writer act =>
    cases act with
    | close =>
      intro hpc
      have hzero := hclosing.flushed (by rw [hpc]; rfl)
      have htotal := hflow.accounted.total
      have hover := Barrier.handedOver_loads st.writer
      refine ⟨by omega, Barrier.loads_nil hflow.sized (by omega), fun c hc hpast => ?_⟩
      have hstart := (hclosing.calls (by simp [hpc]) c hc).1
      rcases hpast with hpast | hpast
      · rw [hstart] at hpast
        cases hpast
      · rw [hstart] at hpast
        cases hpast
    | _ => trivial

theorem writer_frame {act : Writer.Action} (h : Writer.Moves srcConnId dstConnId w act w')
    (hact : isSend act = false) : w'.sends = w.sends ∧ Barrier.enqueued w w' act = [] ∧
      (act ≠ .closeBegin → w'.closer ≠ .idle → w.closer ≠ .idle) := by
  cases h with
  | sendBegin | sendClosed | sendCheck | sendAccount | sendEnqueue | sendFull | sendUndo
  | sendCancel => cases hact
  | senderNotify hpc =>
    exact ⟨rfl, rfl, fun _ hne hidle => hne ((Writer.wake_idle _).mpr hidle)⟩
  | closeBegin hpc => exact ⟨rfl, rfl, fun hne => absurd rfl hne⟩
  | closeFlush f f' hpc | closeFlushed hpc | closeMark hpc | closeReserve hpc | closeRecord pn hpc
  | closeSendFin pn hpc | closeRetransmit pn hpc | closeReturn pn hpc =>
    exact ⟨rfl, rfl, fun _ _ hidle => by rw [hidle] at hpc; cases hpc⟩
  | _ => exact ⟨rfl, rfl, fun _ hne => hne⟩

theorem singleton_split {α : Type} {x c : α} {pre post : List α} (h : [x] = pre ++ c :: post) :
    pre = [] ∧ c = x ∧ post = [] := by
  cases pre with
  | nil =>
    cases h
    exact ⟨rfl, rfl, rfl⟩
  | cons y pre => simp at h

/-- A step of the one call: it goes on, or it ends with its bytes in the channel or not. -/
theorem send_frame {data : Bytes} {pc : Writer.SendPc} {i : ℕ}
    (h : Writer.Moves srcConnId dstConnId w (.send i) w') (hsends : w.sends = [⟨.sync, data, pc⟩]) :
    w'.closer = w.closer ∧
      ((∃ pc', w'.sends = [⟨.sync, data, pc'⟩] ∧ Barrier.enqueued w w' (.send i) = []) ∨
        w'.sends = [] ∧ (pc = .start ∨ pc = .failed) ∧ Barrier.enqueued w w' (.send i) = [] ∨
        w'.sends = [] ∧ pc = .accounted ∧ Barrier.enqueued w w' (.send i) = data) := by
  cases h with
  | sendClosed i pre post c hold hpc =>
    obtain ⟨rfl, rfl, rfl⟩ := singleton_split (hsends.symm.trans hold)
    exact ⟨rfl, .inr (.inl ⟨rfl, .inl hpc, by simp [Barrier.enqueued]⟩)⟩
  | sendUndo i pre post c hold hpc =>
    obtain ⟨rfl, rfl, rfl⟩ := singleton_split (hsends.symm.trans hold)
    exact ⟨rfl, .inr (.inl ⟨rfl, .inr hpc, by simp [Barrier.enqueued]⟩)⟩
  | sendCheck i pre post c hold hpc | sendAccount i pre post c hold hpc
  | sendFull i pre post c hold hpc =>
    obtain ⟨rfl, rfl, rfl⟩ := singleton_split (hsends.symm.trans hold)
    exact ⟨rfl, .inl ⟨_, rfl, by simp [Barrier.enqueued]⟩⟩
  | sendEnqueue i pre post c hold hpc hroom =>
    obtain ⟨rfl, rfl, rfl⟩ := singleton_split (hsends.symm.trans hold)
    exact ⟨rfl, .inr (.inr ⟨rfl, hpc, by simp [Barrier.enqueued]⟩)⟩

end

/-! ### The sending side -/

def Pc.failed : Pc → Bool
  | .done none _ => true
  | _ => false

def Calls : Pc → List Writer.SendCall → Prop
  | .sending data, sends => ∃ pc, sends = [⟨.sync, data, pc⟩]
  | _, sends => sends = []

structure SenderSide (st : State) : Prop where
  closing : Writer.Closing st.net.sender.writer
  calls : Calls st.a.pc st.net.sender.writer.sends
  closer : st.net.sender.writer.closer ≠ .idle → ∃ reason, reason ≠ .peerClosed ∧
    (st.a.pc = .closing reason ∨ st.a.pc = .done (some reason) (.ok ()))
  accepted : st.net.sender.accepted <+: st.taken.flatten
  bytes : st.a.pc.failed = false → st.net.sender.accepted ++ st.a.pc.line = st.taken.flatten
  given : st.given = st.taken ++ st.stdin.queue
  eof : st.a.pc.sawEof = true → st.stdin.reading = false ∧ st.stdin.queue = []

section

variable {cfgB : Config} {srcConnId dstConnId : UInt32} {st st' : State}

theorem calls_of_free {pc : Pc} (h : pc.free = true) (sends : List Writer.SendCall) :
    Calls pc sends ↔ sends = [] := by
  cases pc with
  | send | sending => cases h
  | _ => exact Iff.rfl

theorem line_of_free {pc : Pc} (h : pc.free = true) : pc.line = [] := by
  cases pc with
  | send | sending => cases h
  | _ => rfl

theorem failed_of_loop {pc : Pc} (h : pc.ended = false) : pc.failed = false := by
  cases pc with
  | done => cases h
  | _ => rfl

theorem SenderSide.idle (h : SenderSide st) (hloop : st.a.pc.ended = false) :
    st.net.sender.writer.closer = .idle := by
  by_contra hne
  obtain ⟨reason, -, hpc | hpc⟩ := h.closer hne
  · rw [hpc] at hloop
    cases hloop
  · rw [hpc] at hloop
    cases hloop

theorem SenderSide.frame (h : SenderSide st) (hsender : st'.net.sender = st.net.sender)
    (ha : st'.a = st.a) (hstdin : st'.stdin = st.stdin) (hgiven : st'.given = st.given)
    (htaken : st'.taken = st.taken) : SenderSide st' := by
  obtain ⟨hclosing, hcalls, hcloser, haccepted, hbytes, hfrom, heof⟩ := h
  constructor
  all_goals
    simp only [hsender, ha, hstdin, hgiven, htaken]
    assumption

theorem sender_same {act : Transfer.Action} {net : Transfer.State}
    (h : Transfer.step srcConnId dstConnId st.net act = some net)
    (hvalid : Transfer.ValidCall act) (hact : ∀ sact, act ≠ .sender sact) :
    net.sender = st.net.sender := by
  rcases Transfer.step_cases ⟨hvalid, h⟩ with ⟨sact, -, rfl, -⟩ | ⟨-, r, came, -, rfl⟩ | rfl
  · exact absurd rfl (hact sact)
  · rfl
  · rfl

theorem recvCall_valid : recvCall.Valid :=
  ⟨Nat.succ_pos 4095, Nat.le_of_eq List.length_replicate.symm⟩

theorem SenderSide.keep {s : Barrier.State} {a : Task} (h : SenderSide st)
    (haccepted : s.accepted = st.net.sender.accepted) (hclosing : Writer.Closing s.writer)
    (hcalls : Calls a.pc s.writer.sends)
    (hcloser : s.writer.closer ≠ .idle → ∃ reason, reason ≠ .peerClosed ∧
      (a.pc = .closing reason ∨ a.pc = .done (some reason) (.ok ())))
    (hline : a.pc.line = st.a.pc.line ∧ st.a.pc.failed = false)
    (heof : a.pc.sawEof = true → st.a.pc.sawEof = true) :
    SenderSide { st with net.sender := s, a := a } := by
  refine ⟨hclosing, hcalls, hcloser, ?_, fun _ => ?_, h.given, fun hsaw => h.eof (heof hsaw)⟩
  · simp only [haccepted]
    exact h.accepted
  · simp only [haccepted, hline.1]
    exact h.bytes hline.2

theorem SenderSide.writer {act : Writer.Action} {s : Barrier.State} {a : Task}
    (h : SenderSide st) (hact : isSend act = false) (hbegin : act ≠ .closeBegin)
    (hs : Barrier.step srcConnId dstConnId st.net.sender (.writer act) = some s)
    (ha : a = st.a ∨ st.a.pc = .flush ∧ a = { st.a with pc := .flushing }) :
    SenderSide { st with net.sender := s, a := a } := by
  have hover : Writer.NoOverlap st.net.sender.writer act := by
    cases act with
    | sendBegin => cases hact
    | closeBegin => exact absurd rfl hbegin
    | _ => trivial
  cases Barrier.moves_of_step hs with
  | writer act w hw =>
    have hclosing := Writer.closing_step hw hover h.closing
    obtain ⟨hsends, henq, hcloser⟩ := writer_frame hw hact
    have haccepted : st.net.sender.accepted ++ Barrier.enqueued st.net.sender.writer w act =
        st.net.sender.accepted := by
      rw [henq, List.append_nil]
    rcases ha with rfl | ⟨hpc, rfl⟩
    · refine ⟨hclosing, ?_, fun hne => h.closer (hcloser hbegin hne), ?_, ?_, h.given, h.eof⟩
      · rw [hsends]
        exact h.calls
      · simp only [haccepted]
        exact h.accepted
      · simp only [haccepted]
        exact h.bytes
    · have hcalls := h.calls
      have hidle := h.idle (by rw [hpc]; rfl)
      rw [hpc] at hcalls
      exact h.keep haccepted hclosing (hsends.trans hcalls)
        (fun hne => absurd hidle (hcloser hbegin hne)) (by rw [hpc]; exact ⟨rfl, rfl⟩)
        (fun _ => by rw [hpc]; rfl)

theorem SenderSide.aSend {data : Bytes} {s : Barrier.State} (h : SenderSide st)
    (hpc : st.a.pc = .send data)
    (hs : Barrier.step srcConnId dstConnId st.net.sender (.writer (.sendBegin .sync data)) =
      some s) : SenderSide { st with net.sender := s, a.pc := .sending data } := by
  have hidle := h.idle (by rw [hpc]; rfl)
  have hcalls := h.calls
  rw [hpc] at hcalls
  cases Barrier.moves_of_step hs with
  | writer act w hw =>
    have hclosing := Writer.closing_step hw (by simp [Writer.NoOverlap, hidle]) h.closing
    cases hw with
    | sendBegin kind payload =>
      refine h.keep (List.append_nil _) hclosing ⟨.start, ?_⟩ (fun hne => absurd hidle hne)
        (by rw [hpc]; exact ⟨rfl, rfl⟩) fun heof => by cases heof
      rw [hcalls, List.nil_append]

theorem SenderSide.aRefused {data : Bytes} {s : Barrier.State} (h : SenderSide st)
    (hpc : st.a.pc = .sending data)
    (hs : Barrier.step srcConnId dstConnId st.net.sender (.refuse 0) = some s) :
    SenderSide { st with net.sender := s } := by
  have hidle := h.idle (by rw [hpc]; rfl)
  have hcalls := h.calls
  rw [hpc] at hcalls
  obtain ⟨pc, hone⟩ := hcalls
  cases Barrier.moves_of_step hs with
  | refuse i pre post c hsends hacc =>
    have hclosing := closing_refuse h.closing hsends hacc
    obtain ⟨rfl, rfl, rfl⟩ := singleton_split (hone.symm.trans hsends)
    refine h.keep rfl hclosing ?_ (fun hne => absurd hidle hne) ⟨rfl, by rw [hpc]; rfl⟩ id
    rw [hpc]
    exact ⟨.failed, rfl⟩

theorem SenderSide.aClose {reason : ExitReason} {s : Barrier.State} (h : SenderSide st)
    (hreason : reason ≠ .peerClosed) (hpc : st.a.pc = .leave reason)
    (hs : Barrier.step srcConnId dstConnId st.net.sender (.writer .closeBegin) = some s) :
    SenderSide { st with net.sender := s, a.pc := .closing reason } := by
  have hcalls := h.calls
  rw [hpc] at hcalls
  cases Barrier.moves_of_step hs with
  | writer act w hw =>
    have hclosing := Writer.closing_step hw hcalls h.closing
    cases hw with
    | closeBegin hidle =>
      exact h.keep (List.append_nil _) hclosing hcalls (fun _ => ⟨reason, hreason, .inl rfl⟩)
        (by rw [hpc]; exact ⟨rfl, rfl⟩) fun heof => by rw [hpc]; exact heof

theorem SenderSide.aClosed {reason : ExitReason} (h : SenderSide st)
    (hpc : st.a.pc = .closing reason) :
    SenderSide { st with a.pc := .done (some reason) (.ok ()) } := by
  have hcalls := h.calls
  rw [hpc] at hcalls
  refine h.keep rfl h.closing hcalls (fun hne => ?_) (by rw [hpc]; exact ⟨rfl, rfl⟩)
    fun heof => by rw [hpc]; exact heof
  obtain ⟨reason', hreason, hold | hold⟩ := h.closer hne
  · rw [hpc] at hold
    cases hold
    exact ⟨reason, hreason, .inr rfl⟩
  · rw [hpc] at hold
    cases hold

theorem SenderSide.aSending {data : Bytes} {s : Barrier.State} {c : Writer.SendCall}
    {rest : List Writer.SendCall} (h : SenderSide st) (hpc : st.a.pc = .sending data)
    (hsends : st.net.sender.writer.sends = c :: rest)
    (hs : Barrier.step srcConnId dstConnId st.net.sender (.writer (.send 0)) = some s) :
    SenderSide { st with
      net.sender := s
      a := if s.writer.sends = [] then st.a.sent data (sendResult c) else st.a } := by
  have hidle := h.idle (by rw [hpc]; rfl)
  cases Barrier.moves_of_step hs with
  | writer act w hw =>
    have hclosing := Writer.closing_step hw trivial h.closing
    have hcalls := h.calls
    have hbytes := h.bytes (by rw [hpc]; rfl)
    rw [hpc] at hcalls hbytes
    obtain ⟨pc, hcall⟩ := hcalls
    obtain ⟨rfl, -⟩ := List.cons.inj (hsends.symm.trans hcall)
    obtain ⟨hcloser, hcase⟩ := send_frame hw hcall
    have hstill : w.closer = .idle := hcloser.trans hidle
    rcases hcase with ⟨pc', hone, henq⟩ | ⟨hnil, hwhy, henq⟩ | ⟨hnil, rfl, henq⟩
    · -- the call goes on
      have hne : w.sends ≠ [] := by simp [hone]
      simp only [henq, List.append_nil, if_neg hne]
      exact ⟨hclosing, by rw [hpc]; exact ⟨pc', hone⟩, fun hc => absurd hstill hc, h.accepted,
        h.bytes, h.given, h.eof⟩
    · -- it returns an error, and with it the loop
      have hfail : ∃ e, st.a.sent data (sendResult ⟨.sync, data, pc⟩) =
          { st.a with pc := .done none (.err e) } := by
        rcases hwhy with rfl | rfl
        · exact ⟨_, rfl⟩
        · exact ⟨_, rfl⟩
      obtain ⟨e, hfail⟩ := hfail
      simp only [henq, List.append_nil, if_pos hnil, hfail]
      exact ⟨hclosing, hnil, fun hc => absurd hstill hc, h.accepted, fun hf => (by cases hf),
        h.given, fun heof => (by cases heof)⟩
    · -- its bytes are accepted
      have hok : st.a.sent data (sendResult ⟨.sync, data, .accounted⟩) =
          { st.a with pc := .drain, totalSent := st.a.totalSent + data.length } := rfl
      simp only [henq, if_pos hnil, hok]
      refine ⟨hclosing, hnil, fun hc => absurd hstill hc, ⟨[], ?_⟩, fun _ => ?_, h.given,
        fun heof => by cases heof⟩
      · rw [List.append_nil]
        exact hbytes
      · exact (List.append_nil _).trans hbytes

theorem SenderSide.step (h : SenderSide st) (hmoves : Moves cfgB srcConnId dstConnId st st') :
    SenderSide st' := by
  cases hmoves with
  | line data hreading =>
    refine ⟨h.closing, h.calls, h.closer, h.accepted, h.bytes, ?_, fun heof => ?_⟩
    · simp only [h.given, List.append_assoc]
    · have hnot := (h.eof heof).1
      rw [hreading] at hnot
      cases hnot
  | stdinEnds =>
    exact ⟨h.closing, h.calls, h.closer, h.accepted, h.bytes, h.given,
      fun heof => ⟨rfl, (h.eof heof).2⟩⟩
  | watch watchA watchB => exact h.frame rfl rfl rfl rfl rfl
  | writer act s a hact hbegin hs ha => exact h.writer hact hbegin hs ha
  | aTurn a hfree hloop hnew heof =>
    have hidle := h.idle hloop
    have hbytes := h.bytes (failed_of_loop hloop)
    rw [line_of_free hfree] at hbytes
    refine ⟨h.closing, ?_, fun hne => absurd hidle hne, h.accepted, fun _ => ?_, h.given,
      fun hsaw => ?_⟩
    · exact (calls_of_free hnew _).mpr ((calls_of_free hfree _).mp h.calls)
    · rw [line_of_free hnew]
      exact hbytes
    · rcases heof hsaw with hold | hend
      · exact h.eof hold
      · exact hend
  | aTake data queue hpc hqueue =>
    have hbytes := h.bytes (by rw [hpc]; rfl)
    have hcalls := h.calls
    rw [hpc] at hbytes hcalls
    refine ⟨h.closing, hcalls, fun hne => absurd (h.idle (by rw [hpc]; rfl)) hne, ?_, fun _ => ?_,
      ?_, fun heof => by cases heof⟩
    · simp only [List.flatten_append]
      exact h.accepted.trans (List.prefix_append ..)
    · simp only [List.flatten_append, ← hbytes]
      simp [Pc.line]
    · simp only [h.given, hqueue]
      simp
  | aSend data s hpc hs => exact h.aSend hpc hs
  | aSending data s c rest hpc hsends hs => exact h.aSending hpc hsends hs
  | aRefused data s hpc hs => exact h.aRefused hpc hs
  | aClose reason s hreason hpc hs => exact h.aClose hreason hpc hs
  | aClosed reason hpc => exact h.aClosed hpc
  | deliver e net hnet | bTask net hpc hnet | bDrop net pc hpc hnew hnet =>
    exact h.frame (sender_same hnet trivial fun _ heq => by cases heq) rfl rfl rfl rfl
  | bCall net hpc hnet =>
    exact h.frame (sender_same hnet recvCall_valid fun _ heq => by cases heq) rfl rfl rfl rfl
  | bSees r hpc hr | bTurn b hpc hnew hstdout heof => exact h.frame rfl rfl rfl rfl rfl

end

/-! ### The receiving side -/

/-- The reply of a read: bytes with their number, or none. -/
def Shaped (r : Reply) : Prop := (∃ n addr, r.result = .ok (n + 1, addr)) ∨ r.bytes = []

/-- Where the call of `recv` is that the loop of `b` waits for. -/
def Receives (seen : ℕ) (t : Reader.Task) : Pc → Prop
  | .receiving => t.replies.length = seen ∧ t.pc.call = some recvCall ∨
      t.replies.length = seen + 1 ∧ t.pc.call = none
  | _ => t.replies.length = seen ∧ t.pc.call = none

structure ReceiverSide (cfgB : Config) (st : State) : Prop where
  calls : Receives st.seen st.net.reader.task st.b.pc
  shaped : ∀ r ∈ st.net.reader.task.replies, Shaped r
  stdout : st.b.stdout =
    if cfgB.diag then [] else handedOut (st.net.reader.task.replies.take st.seen)
  eof : st.b.pc.reason = some .peerClosed → ∃ r ∈ st.net.reader.task.replies, r.Eof

section

variable {cfgB : Config} {srcConnId dstConnId : UInt32} {st st' : State}

theorem receives_other {seen : ℕ} {t : Reader.Task} {pc : Pc} (hpc : pc ≠ .receiving) :
    Receives seen t pc ↔ t.replies.length = seen ∧ t.pc.call = none := by
  cases pc with
  | receiving => exact absurd rfl hpc
  | _ => exact Iff.rfl

theorem settle_shaped (t : Reader.Task) (res : BluefinResult (ConsumeResult × SocketAddr))
    (buf : Bytes) : ∃ r, (t.settle res fun r => buf.take r.bytesConsumed).replies =
      t.replies ++ [r] ∧ (t.settle res fun r => buf.take r.bytesConsumed).pc.call = none ∧
        Shaped r := by
  cases res with
  | ok ra =>
    refine ⟨_, rfl, rfl, ?_⟩
    rcases hn : ra.1.bytesConsumed with _ | n
    · exact .inr (by simp only [hn, List.take_zero])
    · exact .inl ⟨n, ra.2, rfl⟩
  | err e => exact ⟨_, rfl, rfl, .inr rfl⟩
  | panicked f => exact ⟨_, rfl, rfl, .inr rfl⟩

theorem task_shaped {r r' : Reader.State} (h : Reader.step r .task = some r')
    (hcall : r.task.pc.call = some recvCall) :
    r'.task.replies = r.task.replies ∧ r'.task.pc.call = some recvCall ∨
      ∃ reply, r'.task.replies = r.task.replies ++ [reply] ∧ r'.task.pc.call = none ∧
        Shaped reply := by
  rcases @Transfer.task_moves 0 [] r r' h with hmoves | ⟨c, addr, hpc, -, rfl⟩
  · cases hmoves with
    | data packets task hcarry hnumber hwoken | fin closeBuff finAckTx task hflag hwoken =>
      exact .inl ⟨Reader.woken_replies hwoken, (Reader.woken_call hwoken).trans hcall⟩
    | call c hpc =>
      rw [hpc] at hcall
      cases hcall
    | resolve c hpc | park c hpc | seeFin c hpc | goOn c hpc | noEof c hpc =>
      rw [hpc] at hcall
      exact .inl ⟨rfl, hcall⟩
    | eof c addr hpc => exact .inr ⟨_, rfl, rfl, .inr rfl⟩
    | finish c hpc =>
      rw [hpc] at hcall
      cases hcall
      exact .inr (settle_shaped r.task _ _)
  · exact .inr ⟨_, rfl, rfl, .inr rfl⟩

theorem deliver_task {net net' : Transfer.State} {e : Emission}
    (h : Transfer.step srcConnId dstConnId net (.deliver e) = some net') :
    Reader.Woken net.reader.task net'.reader.task := by
  simp only [Transfer.step] at h
  split at h
  · split at h
    · obtain ⟨r, hr, rfl⟩ := Option.map_eq_some_iff.mp h
      simp only [Reader.step] at hr
      cases hr
      exact Transfer.woken_ite ..
    · cases h
  · cases h

theorem call_task {net net' : Transfer.State} {c : ReadCall}
    (h : Transfer.step srcConnId dstConnId net (.call c) = some net') :
    net'.reader.task = { net.reader.task with pc := .polling c } := by
  obtain ⟨r, hr, rfl⟩ := Option.map_eq_some_iff.mp h
  simp only [Reader.step] at hr
  split at hr
  · cases hr
    rfl
  · cases hr

theorem cancel_task {net net' : Transfer.State}
    (h : Transfer.step srcConnId dstConnId net .cancel = some net') :
    net.reader.task.pc.call ≠ none ∧ net'.reader.task = { net.reader.task with pc := .idle } := by
  simp only [Transfer.step] at h
  split at h
  · rename_i c hpc
    cases h
    exact ⟨by simp [hpc, Reader.Pc.call], rfl⟩
  · rename_i c hpc
    cases h
    exact ⟨by simp [hpc, Reader.Pc.call], rfl⟩
  · cases h

/-- The loop sees a reply: it prints the bytes, and leaves when the reply says that there are no
more. -/
theorem received_reply {t : Task} {r : Reply} (hr : Shaped r) :
    (t.received cfgB (.result (r.result.map Prod.fst) r.bytes)).pc ≠ .receiving ∧
      (t.received cfgB (.result (r.result.map Prod.fst) r.bytes)).stdout =
        (if cfgB.diag then t.stdout else t.stdout ++ r.bytes) ∧
      ((t.received cfgB (.result (r.result.map Prod.fst) r.bytes)).pc.reason =
        some .peerClosed → r.Eof) := by
  obtain ⟨res, bytes⟩ := r
  have hnone : bytes = [] → t.stdout = if cfgB.diag then t.stdout else t.stdout ++ bytes := by
    rintro rfl
    rw [List.append_nil, ite_self]
  cases res with
  | ok na =>
    obtain ⟨n, addr⟩ := na
    cases n with
    | zero =>
      refine ⟨by simp [Outcome.map, Task.received], hnone ?_, fun _ => ⟨addr, rfl⟩⟩
      rcases hr with ⟨n, addr', hres⟩ | hbytes
      · cases hres
      · exact hbytes
    | succ n =>
      exact ⟨by simp [Outcome.map, Task.received], rfl, fun hreason => by cases hreason⟩
  | err e | panicked f =>
    refine ⟨by simp [Outcome.map, Task.received], hnone ?_, fun hreason => by cases hreason⟩
    rcases hr with ⟨n, addr', hres⟩ | hbytes
    · cases hres
    · exact hbytes

theorem ReceiverSide.frame (h : ReceiverSide cfgB st)
    (hreplies : st'.net.reader.task.replies = st.net.reader.task.replies)
    (hseen : st'.seen = st.seen) (hstdout : st'.b.stdout = st.b.stdout)
    (hcalls : Receives st'.seen st'.net.reader.task st'.b.pc)
    (heof : st'.b.pc.reason = some .peerClosed → st.b.pc.reason = some .peerClosed) :
    ReceiverSide cfgB st' := by
  refine ⟨hcalls, ?_, ?_, fun hreason => ?_⟩
  · rw [hreplies]
    exact h.shaped
  · rw [hstdout, hreplies, hseen]
    exact h.stdout
  · rw [hreplies]
    exact h.eof (heof hreason)

theorem stdout_unseen {seen : ℕ} {replies : List Reply} {r : Reply}
    (h : replies.length = seen) : (replies ++ [r]).take seen = replies.take seen := by
  rw [← h, List.take_left', List.take_length]
  rfl

theorem task_calls {r r' : Reader.State} (h : Reader.step r .task = some r') :
    r.task.pc.call ≠ none := by
  intro hnone
  obtain ⟨bt, hstep, -⟩ := Option.map_eq_some_iff.mp h
  unfold Reader.taskStep at hstep
  cases hpc : r.task.pc with
  | idle | crashed =>
    rw [hpc] at hstep
    cases hstep
  | _ =>
    rw [hpc] at hnone
    cases hnone

theorem ReceiverSide.bTask {net : Transfer.State} (h : ReceiverSide cfgB st)
    (hpc : st.b.pc = .receiving)
    (hnet : Transfer.step srcConnId dstConnId st.net .task = some net) :
    ReceiverSide cfgB { st with net := net } := by
  obtain ⟨r, hr, rfl⟩ := Option.map_eq_some_iff.mp hnet
  have hcalls := h.calls
  rw [hpc] at hcalls
  obtain ⟨hlen, hcall⟩ := hcalls.resolve_right fun hidle => task_calls hr hidle.2
  rcases task_shaped hr hcall with ⟨hreplies, hcall'⟩ | ⟨reply, hreplies, hcall', hshape⟩
  · refine h.frame hreplies rfl rfl ?_ id
    simp only [hpc]
    exact .inl ⟨(congrArg List.length hreplies).trans hlen, hcall'⟩
  · refine ⟨?_, ?_, ?_, fun hreason => ?_⟩
    · simp only [hpc]
      exact .inr ⟨by rw [hreplies, List.length_append, hlen]; rfl, hcall'⟩
    · simp only [hreplies, List.forall_mem_append, List.forall_mem_singleton]
      exact ⟨h.shaped, hshape⟩
    · simp only [hreplies, stdout_unseen hlen]
      exact h.stdout
    · rw [hpc] at hreason
      cases hreason

theorem ReceiverSide.step (h : ReceiverSide cfgB st)
    (hmoves : Moves cfgB srcConnId dstConnId st st') : ReceiverSide cfgB st' := by
  cases hmoves with
  | line | stdinEnds | watch | writer | aTurn | aTake | aSend | aSending | aRefused | aClose
  | aClosed => exact h.frame rfl rfl rfl h.calls id
  | deliver e net hnet =>
    have hwoken := deliver_task hnet
    refine h.frame (Reader.woken_replies hwoken) rfl rfl ?_ id
    have hcalls := h.calls
    unfold Receives at hcalls ⊢
    simp only [Reader.woken_replies hwoken, Reader.woken_call hwoken]
    exact hcalls
  | bCall net hpc hnet =>
    have htask := call_task hnet
    obtain ⟨hlen, -⟩ := (receives_other (by simp [hpc])).mp h.calls
    refine h.frame (by rw [htask]) rfl rfl (.inl ?_) fun heof => by cases heof
    simp only [htask]
    exact ⟨hlen, rfl⟩
  | bTask net hpc hnet => exact h.bTask hpc hnet
  | bSees r hpc hr =>
    have hcalls := h.calls
    rw [hpc] at hcalls
    have hmem : r ∈ st.net.reader.task.replies := List.mem_of_getElem? hr
    have hlt := (List.getElem?_eq_some_iff.mp hr).1
    have hseen := hcalls.resolve_left fun hnone => by omega
    obtain ⟨hpc', hstdout, heof⟩ := @received_reply cfgB st.b r (h.shaped r hmem)
    refine ⟨(receives_other hpc').mpr hseen, h.shaped, ?_, fun hreason => ⟨r, hmem, heof hreason⟩⟩
    rw [hstdout, h.stdout]
    simp only [List.take_add_one, hr]
    split
    · rfl
    · simp [handedOut]
  | bDrop net pc hpc hnew hnet =>
    obtain ⟨hsome, htask⟩ := cancel_task hnet
    have hcalls := h.calls
    rw [hpc] at hcalls
    obtain ⟨hlen, -⟩ := hcalls.resolve_right fun hidle => hsome hidle.2
    have hother : pc ≠ .receiving ∧ pc.reason ≠ some .peerClosed := by
      rcases hnew with rfl | rfl <;> exact ⟨by simp, by simp [Pc.reason]⟩
    refine h.frame (by rw [htask]) rfl rfl ((receives_other hother.1).mpr ?_)
      fun heof => absurd heof hother.2
    simp only [htask]
    exact ⟨hlen, rfl⟩
  | bTurn b hpc hnew hstdout heof =>
    exact h.frame rfl rfl hstdout ((receives_other hnew).mpr ((receives_other hpc).mp h.calls)) heof

end

/-! ### Runs -/

section

variable {cfgA cfgB : Config} {srcConnId dstConnId : UInt32} {start : UInt64}
  {bufs : ConnectionManagedBuffers} {rxB : Bool} {acts : List Action} {st st' : State}

theorem quiet_sender {act : Barrier.Action} {s : Barrier.State}
    (hs : Barrier.step srcConnId dstConnId st.net.sender act = some s)
    (hflow : Barrier.Flow st.net.sender) (h : SenderSide st) :
    Transfer.QuietStep srcConnId dstConnId st.net (.sender act) { st.net with sender := s } :=
  ⟨quiet_of_closing hflow h.closing act, trivial,
    Option.map_eq_some_iff.mpr ⟨s, hs, rfl⟩⟩

/-- A step of the two programs is at most one of the connection, and one that marks the writer
closed does so in a quiet state. -/
theorem net_step (hmoves : Moves cfgB srcConnId dstConnId st st')
    (hflow : Barrier.Flow st.net.sender) (h : SenderSide st) :
    st'.net = st.net ∨
      ∃ act, Transfer.QuietStep srcConnId dstConnId st.net act st'.net := by
  cases hmoves with
  | line | stdinEnds | watch | aTurn | aTake | aClosed | bSees | bTurn => exact .inl rfl
  | writer act s a hact hbegin hs | aSend data s hpc hs | aSending data s c rest hpc hsends hs
  | aRefused data s hpc hs | aClose reason s hreason hpc hs =>
    exact .inr ⟨_, quiet_sender hs hflow h⟩
  | deliver e net hnet => exact .inr ⟨.deliver e, trivial, trivial, hnet⟩
  | bCall net hpc hnet => exact .inr ⟨.call recvCall, trivial, recvCall_valid, hnet⟩
  | bTask net hpc hnet => exact .inr ⟨.task, trivial, trivial, hnet⟩
  | bDrop net pc hpc hnew hnet => exact .inr ⟨.cancel, trivial, trivial, hnet⟩

structure Inv (cfgB : Config) (srcConnId dstConnId : UInt32) (start : UInt64)
    (bufs : ConnectionManagedBuffers) (st : State) : Prop where
  net : ∃ acts, Run (Transfer.QuietStep srcConnId dstConnId) (Transfer.init start bufs) acts st.net
  sender : SenderSide st
  receiver : ReceiverSide cfgB st

theorem inv_init : Inv cfgB srcConnId dstConnId start bufs (init start bufs rxB) where
  net := ⟨[], .nil⟩
  sender := ⟨Writer.closing_idle rfl, rfl, fun hne => absurd rfl hne, List.prefix_refl _,
    fun _ => rfl, rfl, fun heof => by cases heof⟩
  receiver := ⟨⟨rfl, rfl⟩, fun r hr => (by cases hr), (ite_self _).symm,
    fun heof => by cases heof⟩

theorem inv_run
    (hr : Run (Step cfgA cfgB srcConnId dstConnId) (init start bufs rxB) acts st) :
    Inv cfgB srcConnId dstConnId start bufs st := by
  refine Run.invariant (P := fun _ st => Inv cfgB srcConnId dstConnId start bufs st) inv_init
    ?_ hr
  rintro acts st act st' - ⟨⟨tacts, hnet⟩, hsender, hreceiver⟩ hstep
  have hmoves := moves_of_step hstep
  refine ⟨?_, hsender.step hmoves, hreceiver.step hmoves⟩
  rcases net_step hmoves (Transfer.kept_run hnet).1 hsender with hsame | ⟨tact, hquiet⟩
  · rw [hsame]
    exact ⟨tacts, hnet⟩
  · exact ⟨_, hnet.snoc hquiet⟩

theorem Inv.transfer (h : Inv cfgB srcConnId dstConnId start bufs st)
    (hb : Reader.Established start bufs) (hroom : Transfer.Room start st.net) :
    Transfer.Inv srcConnId dstConnId start 0 st.net := by
  obtain ⟨tacts, hnet⟩ := h.net
  exact Transfer.aligned_run hb (hnet.mono fun _ _ _ hquiet => hquiet.2) hroom

theorem Inv.kept (h : Inv cfgB srcConnId dstConnId start bufs st) :
    Barrier.Kept st.net.sender := by
  obtain ⟨tacts, hnet⟩ := h.net
  exact (Transfer.kept_run hnet).2

/-- Once `close()` has been called, what was accepted is what was taken. -/
theorem SenderSide.accepted_eq (h : SenderSide st) (hfree : st.a.pc.free = true)
    (hok : st.a.pc.failed = false) : st.net.sender.accepted = st.taken.flatten := by
  have hbytes := h.bytes hok
  rw [line_of_free hfree, List.append_nil] at hbytes
  exact hbytes

theorem SenderSide.taken_eq (h : SenderSide st) (hreason : st.a.pc.reason = some .stdinEof) :
    st.taken = st.given := by
  have hsaw : st.a.pc.sawEof = true := by
    cases hpc : st.a.pc with
    | flush | flushing => rfl
    | _ =>
      rw [hpc] at hreason
      exact decide_eq_true hreason
  rw [h.given, (h.eof hsaw).2, List.append_nil]

theorem Inv.closed (h : Inv cfgB srcConnId dstConnId start bufs st) {pn : UInt64}
    (hfin : .fin pn ∈ st.net.sender.writer.wire) :
    (∃ reason, reason ≠ .peerClosed ∧
      (st.a.pc = .closing reason ∨ st.a.pc = .done (some reason) (.ok ()))) ∧
      sentBytes st.net.sender.writer.wire = st.taken.flatten := by
  have hmarked := h.kept.fins _ hfin rfl
  have hclosing : st.net.sender.writer.closer ≠ .idle := by
    intro hidle
    rw [hidle] at hmarked
    cases hmarked
  have hleft := h.sender.closer hclosing
  refine ⟨hleft, (h.kept.marked hmarked).2.1.trans ?_⟩
  obtain ⟨reason, -, hpc | hpc⟩ := hleft
  · exact h.sender.accepted_eq (by rw [hpc]; rfl) (by rw [hpc]; rfl)
  · exact h.sender.accepted_eq (by rw [hpc]; rfl) (by rw [hpc]; rfl)

end

end Pipe

end Bluefin
