import Bluefin.Net.Peek

/-!
# A reassembly buffer fed by one sender

The sender numbers the chunks `cs` from `start` on. `Fed` says that everything
the buffer has taken in is one of these chunks under its number; what it has
handed out, with what it still holds back, is then the front of the chunks
(`fed_content`).
-/

namespace Bluefin
open Base

namespace OrderedBytes

/-- The packet carries the chunk that the sender cut out under its number. -/
def Carries (start : ℕ) (cs : List Bytes) (p : BluefinPacket) : Prop :=
  p.header.packetNumber.toNat < 2 ^ 64 - 1 ∧
    ∃ k, p.header.packetNumber.toNat = start + k ∧ cs[k]? = some p.payload

theorem carries_append {start : ℕ} {cs : List Bytes} {p : BluefinPacket} (h : Carries start cs p)
    (ds : List Bytes) : Carries start (cs ++ ds) p := by
  obtain ⟨hsmall, k, hk, hget⟩ := h
  have hlt : k < cs.length := (List.getElem?_eq_some_iff.mp hget).1
  exact ⟨hsmall, k, hk, by rw [List.getElem?_append_left hlt, hget]⟩

/-- The buffer after the abstract run `es`, which ends in `a`. -/
structure Fed (start : ℕ) (cs : List Bytes) (s : OrderedBytes)
    (es : List (Reassembly.Event UInt8)) (a : AbstractReceiver) : Prop where
  run : Run Reassembly.Step (Reassembly.init start) es a
  represents : s.Represents a
  source : ∀ n xs, Reassembly.acceptedAt es n = some xs → ∃ k, n = start + k ∧ cs[k]? = some xs

theorem fed_new (connId : UInt32) (start : UInt64) (cs : List Bytes) :
    Fed start.toNat cs (new connId start) [] (Reassembly.init start.toNat) where
  run := .nil
  represents := represents_new connId start
  source := by
    intro n xs h
    cases h

variable {start : ℕ} {cs : List Bytes} {s : OrderedBytes} {es : List (Reassembly.Event UInt8)}
  {a : AbstractReceiver}

theorem fed_append (h : Fed start cs s es a) (ds : List Bytes) : Fed start (cs ++ ds) s es a := by
  refine ⟨h.run, h.represents, ?_⟩
  intro n xs hn
  obtain ⟨k, hk, hget⟩ := h.source n xs hn
  have hlt : k < cs.length := (List.getElem?_eq_some_iff.mp hget).1
  exact ⟨k, hk, by rw [List.getElem?_append_left hlt, hget]⟩

theorem fed_buffer (h : Fed start cs s es a) (p : BluefinPacket) (hp : Carries start cs p) :
    ∃ es' a', Fed start cs (s.bufferInPacket p).2 es' a' ∧
      Reassembly.delivered es' = Reassembly.delivered es := by
  obtain ⟨hsmall, k, hk, hget⟩ := hp
  obtain ⟨a', hstep, hrep⟩ := simulates h.represents (.bufferInPacket p) hsmall
  refine ⟨es ++ [s.event (.bufferInPacket p)], a', ⟨h.run.snoc hstep, hrep, ?_⟩, ?_⟩
  · intro n xs hn
    rw [Reassembly.acceptedAt_snoc] at hn
    cases hold : Reassembly.acceptedAt es n with
    | some ys =>
      rw [hold, Option.some_or] at hn
      exact h.source n xs (hold.trans hn)
    | none =>
      rw [hold, Option.none_or] at hn
      simp only [event] at hn
      split at hn
      · simp only [Reassembly.acceptedAt] at hn
        split at hn
        · rename_i _ hnum
          cases hn
          exact ⟨k, by rw [← hnum, hk], hget⟩
        · cases hn
      · cases hn
  · simp only [Reassembly.delivered, List.flatMap_append, event]
    split <;> simp

theorem fed_bufferAll (h : Fed start cs s es a) (ps : List BluefinPacket)
    (hps : ∀ p ∈ ps, Carries start cs p) :
    ∃ es' a', Fed start cs (s.bufferAll ps) es' a' ∧
      Reassembly.delivered es' = Reassembly.delivered es := by
  induction ps generalizing s es a with
  | nil => exact ⟨es, a, h, rfl⟩
  | cons p ps ih =>
    obtain ⟨es', a', h', hsame⟩ := fed_buffer h p (hps p (List.mem_cons_self ..))
    obtain ⟨es'', a'', h'', hsame'⟩ := ih h' (fun q hq => hps q (List.mem_cons_of_mem _ hq))
    exact ⟨es'', a'', h'', hsame'.trans hsame⟩

/-- The bytes a call hands to the application. -/
def handedBy (s : OrderedBytes) (c : Call) : Bytes := Reassembly.delivered [s.event c]

theorem fed_take (h : Fed start cs s es a) (c : Call) (hc : c.Valid)
    (hno : Reassembly.acceptedAt [s.event c] = fun _ => none) :
    ∃ es' a', Fed start cs (s.call c) es' a' ∧
      Reassembly.delivered es' = Reassembly.delivered es ++ s.handedBy c := by
  obtain ⟨a', hstep, hrep⟩ := simulates h.represents c hc
  refine ⟨es ++ [s.event c], a', ⟨h.run.snoc hstep, hrep, ?_⟩, ?_⟩
  · intro n xs hn
    rw [Reassembly.acceptedAt_snoc, hno, Option.or_none] at hn
    exact h.source n xs hn
  · simp [handedBy, Reassembly.delivered]

theorem fed_consume (h : Fed start cs s es a) (len : ℕ) (buf : Bytes) (hbuf : len ≤ buf.length) :
    ∃ es' a', Fed start cs (s.consume len buf).2.1 es' a' ∧
      Reassembly.delivered es' = Reassembly.delivered es ++ s.handedBy (.consume len buf) := by
  refine fed_take h (.consume len buf) hbuf ?_
  funext n
  simp only [event]
  split <;> rfl

theorem fed_consumeBytes (h : Fed start cs s es a) (out : List Bytes) (maxPackets : ℕ) :
    ∃ es' a', Fed start cs (s.consumeBytes out maxPackets).2.1 es' a' ∧
      Reassembly.delivered es' =
        Reassembly.delivered es ++ s.handedBy (.consumeBytes out maxPackets) :=
  fed_take h (.consumeBytes out maxPackets) trivial rfl

theorem fed_content (h : Fed start cs s es a) :
    start ≤ a.next ∧ a.next - start ≤ cs.length ∧
      Reassembly.delivered es ++ a.pending = (cs.take (a.next - start)).flatten := by
  have hacc := Reassembly.run_account h.run
  have hstart := hacc.start_le
  have hlist : ∀ i, i < a.next - start → Reassembly.acceptedAt es (start + i) = cs[i]? := by
    intro i hi
    obtain ⟨xs, hxs⟩ := Option.ne_none_iff_exists'.mp (hacc.taken (start + i) (by omega) (by omega))
    obtain ⟨k, hk, hget⟩ := h.source _ _ hxs
    rw [hxs, ← hget]
    congr 1
    omega
  refine ⟨hstart, ?_, ?_⟩
  · by_contra hlong
    have hlast := hlist cs.length (by omega)
    rw [List.getElem?_eq_none (Nat.le_refl _)] at hlast
    exact hacc.taken (start + cs.length) (by omega) (by omega) hlast
  · rw [hacc.content, ← chunks_of_list _ cs start (a.next - start) hlist]
    congr 1
    omega

theorem fed_prefix (h : Fed start cs s es a) : Reassembly.delivered es <+: cs.flatten := by
  obtain ⟨_, _, hcontent⟩ := fed_content h
  have hhanded : Reassembly.delivered es <+: (cs.take (a.next - start)).flatten := by
    rw [← hcontent]
    exact List.prefix_append ..
  have htaken : (cs.take (a.next - start)).flatten <+: cs.flatten := by
    refine ⟨(cs.drop (a.next - start)).flatten, ?_⟩
    rw [← List.flatten_append, List.take_append_drop]
  exact hhanded.trans htaken

end OrderedBytes

end Bluefin
