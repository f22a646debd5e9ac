import Mathlib
import Dtle.Applier.Apply

/-!
# Dtle.Applier.Incr

The `_incr_hete` subscription of `ApplierOracle.subscribeNats`. NATS hands the callback one
segment at a time. The callback feeds it to `incrNMM`; a segment that does not end a message is
acknowledged at once. For one that does, the callback blocks in a `select` until the bounded
`a.ai.incrBytesQueue` has room or `shutdownCh` is closed; on the queue case it puts the message
on the queue, adds its length to `memory2`, resets `incrNMM`, and only then publishes the ack.
The consumer takes payloads off the queue at its own pace, and `Shutdown` closes the NATS
connection and `shutdownCh` at any point; a publish on the closed connection fails and sends no
ack.

`NatsMsgMerger`'s code is not in the repository's files: `incrNMM` is modelled from the spec
(section 4.3): `Handle` appends the segment and reports whether it is the final one, `GetBytes`
returns what was appended, `Reset` clears. The queue is a buffered channel of capacity `cap`.

`step` is executable; a run is a list of `Action`s and `exec` plays it from `init`.

Main results:
* `exec_inv` — every run keeps `Inv`;
* `exec_acks_and_payloads` — acks are sent once each and in order, a final segment only after
  its message is on the queue; the payloads put on the queue are the reassembled messages in
  order; `memory2` is the sum of their lengths; the queue never holds more than `cap`;
* `final_ack_while_queue_full` — the ack of a final segment may be published while the queue is
  full, since it is the segment's own message that filled it;
* `exec_no_lost_ack` — the acks are always the first segments, none skipped, and while
  `Shutdown` has not run they are every segment handed over but the one the callback holds.
-/

namespace Dtle
namespace Applier

/-- A message on `_incr_hete`: its data and whether its envelope marks the final segment. -/
structure Segment where
  data : Bytes
  final : Bool
  deriving DecidableEq, Repr

/-- Modelled from the spec: a `NatsMsgMerger` holds the bytes appended since its last `Reset`. -/
structure NatsMsgMerger where
  buf : Bytes
  deriving DecidableEq, Repr

namespace NatsMsgMerger

/-- `Handle(data)`: append the segment; whether it was the final one. -/
def handle (m : NatsMsgMerger) (seg : Segment) : NatsMsgMerger × Bool :=
  (⟨m.buf ++ seg.data⟩, seg.final)

/-- `GetBytes()`. -/
def getBytes (m : NatsMsgMerger) : Bytes := m.buf

/-- `Reset()`. -/
def reset : NatsMsgMerger := ⟨[]⟩

end NatsMsgMerger

/-- Where the callback is. -/
inductive Callback where
  /-- returned: NATS may hand over the next segment -/
  | idle
  /-- in the `select`, holding `bs`, the message that segment `k` completed -/
  | selecting (k : Nat) (bs : Bytes)
  /-- about to publish the ack of segment `k` on `m.Reply` -/
  | replying (k : Nat)
  deriving DecidableEq, Repr

/-- The subscription, the queue and what the extractor has seen. `acks` and `enqueued` record
the run: the segments acknowledged and the payloads put on the queue, in order. -/
structure Incr where
  delivered : Nat
  nmm : NatsMsgMerger
  callback : Callback
  /-- `a.ai.incrBytesQueue`, oldest first -/
  queue : List Bytes
  memory2 : Nat
  /-- `shutdownCh` closed and the NATS connection closed -/
  shutdown : Bool
  acks : List Nat
  enqueued : List Bytes
  deriving DecidableEq, Repr

namespace Incr

/-- Before the first segment: `memory2 := new(int64)`, an empty queue. -/
def init : Incr := ⟨0, NatsMsgMerger.reset, .idle, [], 0, false, [], []⟩

/-- The events of a run. -/
inductive Action where
  /-- NATS hands the next segment to the callback, which runs `Handle` and `GetBytes` -/
  | deliver
  /-- the `select` takes `a.ai.incrBytesQueue <- bs` -/
  | enqueue
  /-- the `select` takes `<-a.shutdownCh` and returns -/
  | quit
  /-- `a.natsConn.Publish(m.Reply, nil)` -/
  | reply
  /-- the consumer receives from the queue -/
  | consume
  /-- `Shutdown` closes the connection and `shutdownCh` -/
  | shutdown
  deriving DecidableEq, Repr

section

variable (segs : List Segment) (cap : Nat)

/-- One event on the segments `segs` and a queue of capacity `cap`, if it can happen now. -/
def step (s : Incr) : Action → Option Incr
  | .deliver =>
    match s.callback, s.shutdown, segs.get? s.delivered with
    | .idle, false, some seg =>
      let (nmm, segmentFinished) := s.nmm.handle seg
      some { s with delivered := s.delivered + 1, nmm,
                    callback := if segmentFinished then .selecting s.delivered nmm.getBytes
                      else .replying s.delivered }
    | _, _, _ => none
  | .enqueue =>
    match s.callback with
    | .selecting k bs =>
      if s.queue.length < cap then
        some { s with queue := s.queue ++ [bs], memory2 := s.memory2 + bs.length,
                      nmm := NatsMsgMerger.reset, enqueued := s.enqueued ++ [bs],
                      callback := .replying k }
      else none
    | _ => none
  | .quit =>
    match s.callback, s.shutdown with
    | .selecting _ _, true => some { s with callback := .idle }
    | _, _ => none
  | .reply =>
    match s.callback with
    | .replying k =>
      some { s with callback := .idle, acks := if s.shutdown then s.acks else s.acks ++ [k] }
    | _ => none
  | .consume =>
    match s.queue with
    | _ :: q => some { s with queue := q }
    | [] => none
  | .shutdown => some { s with shutdown := true }

def exec : Incr → List Action → Option Incr
  | s, [] => some s
  | s, a :: as => (step segs cap s a).bind (exec · as)

end

end Incr

/-- One segment of the spec's reassembly: the messages completed so far and the open one. -/
def reassembleStep (r : List Bytes × Bytes) (seg : Segment) : List Bytes × Bytes :=
  if seg.final then (r.1 ++ [r.2 ++ seg.data], []) else (r.1, r.2 ++ seg.data)

/-- The messages the segments carry, reassembled as the spec describes, and the bytes of the
message still open. -/
def reassemble (segs : List Segment) : List Bytes × Bytes := segs.foldl reassembleStep ([], [])

theorem reassemble_take_succ {segs : List Segment} {n : Nat} {seg : Segment}
    (h : segs.get? n = some seg) :
    reassemble (segs.take (n + 1)) = reassembleStep (reassemble (segs.take n)) seg := by
  rw [List.get?_eq_getElem?] at h
  simp [reassemble, List.take_succ, h]

namespace Incr

section

variable {segs : List Segment} {cap : Nat}

/-- What every reachable state satisfies: `r` is the reassembly of the delivered segments. -/
structure Inv (segs : List Segment) (cap : Nat) (s : Incr) : Prop where
  acks_sorted : s.acks.Sorted (· < ·)
  acks_lt : ∀ j ∈ s.acks, j < s.delivered
  inFlight : ∀ k, (s.callback = .replying k ∨ ∃ bs, s.callback = .selecting k bs) →
    k + 1 = s.delivered ∧ k ∉ s.acks
  enqueued_prefix : s.enqueued <+: (reassemble (segs.take s.delivered)).1
  selecting : ∀ k bs, s.callback = .selecting k bs →
    s.enqueued ++ [bs] = (reassemble (segs.take s.delivered)).1 ∧
      (reassemble (segs.take s.delivered)).2 = [] ∧ (segs.get? k).map (·.final) = some true
  running : s.shutdown = false → (∀ k bs, s.callback ≠ .selecting k bs) →
    s.enqueued = (reassemble (segs.take s.delivered)).1 ∧
      s.nmm.buf = (reassemble (segs.take s.delivered)).2
  finalAcked : ∀ k ∈ s.acks, (segs.get? k).map (·.final) = some true →
    (reassemble (segs.take (k + 1))).1 <+: s.enqueued
  queue_suffix : s.queue <:+ s.enqueued
  queue_le : s.queue.length ≤ cap
  memory2_eq : s.memory2 = (s.enqueued.map List.length).sum
  acks_range : ∃ n, s.acks = List.range n ∧
    (s.shutdown = false → n = if s.callback = .idle then s.delivered else s.delivered - 1)

theorem inv_init : Inv segs cap init where
  acks_sorted := List.sorted_nil
  acks_lt := by simp [init]
  inFlight := by simp [init]
  enqueued_prefix := by simp [init]
  selecting := by simp [init]
  running := by simp [init, reassemble, NatsMsgMerger.reset]
  finalAcked := by simp [init]
  queue_suffix := by simp [init]
  queue_le := by simp [init]
  memory2_eq := rfl
  acks_range := ⟨0, rfl, by simp [init]⟩

/-! ## What one step can do -/

theorem step_deliver {s s' : Incr} (h : step segs cap s .deliver = some s') :
    s.callback = .idle ∧ s.shutdown = false ∧ ∃ seg, segs.get? s.delivered = some seg ∧
      s' = { s with
        delivered := s.delivered + 1, nmm := ⟨s.nmm.buf ++ seg.data⟩,
        callback := if seg.final then .selecting s.delivered (s.nmm.buf ++ seg.data)
          else .replying s.delivered } := by
  simp only [step] at h
  split at h
  · cases h; exact ⟨‹_›, ‹_›, _, ‹_›, rfl⟩
  · cases h

theorem step_enqueue {s s' : Incr} (h : step segs cap s .enqueue = some s') :
    ∃ k bs, s.callback = .selecting k bs ∧ s.queue.length < cap ∧
      s' = { s with
        queue := s.queue ++ [bs], memory2 := s.memory2 + bs.length,
        nmm := NatsMsgMerger.reset, enqueued := s.enqueued ++ [bs], callback := .replying k } := by
  simp only [step] at h
  split at h
  · split at h
    · cases h; exact ⟨_, _, ‹_›, ‹_›, rfl⟩
    · cases h
  · cases h

theorem step_quit {s s' : Incr} (h : step segs cap s .quit = some s') :
    (∃ k bs, s.callback = .selecting k bs) ∧ s.shutdown = true ∧
      s' = { s with callback := .idle } := by
  simp only [step] at h
  split at h
  · cases h; exact ⟨⟨_, _, ‹_›⟩, ‹_›, rfl⟩
  · cases h

theorem step_reply {s s' : Incr} (h : step segs cap s .reply = some s') :
    ∃ k, s.callback = .replying k ∧
      s' = { s with callback := .idle, acks := if s.shutdown then s.acks else s.acks ++ [k] } := by
  simp only [step] at h
  split at h
  · cases h; exact ⟨_, ‹_›, rfl⟩
  · cases h

theorem step_consume {s s' : Incr} (h : step segs cap s .consume = some s') :
    ∃ p q, s.queue = p :: q ∧ s' = { s with queue := q } := by
  simp only [step] at h
  split at h
  · cases h; exact ⟨_, _, ‹_›, rfl⟩
  · cases h

theorem Inv.deliver {s s' : Incr} (hs : Inv segs cap s) (h : step segs cap s .deliver = some s') :
    Inv segs cap s' := by
  obtain ⟨hidle, hdown, seg, hseg, rfl⟩ := step_deliver h
  obtain ⟨he, hb⟩ := hs.running hdown (by simp [hidle])
  have hr := reassemble_take_succ hseg
  rw [List.get?_eq_getElem?] at hseg
  have hnot : s.delivered ∉ s.acks := fun hmem => Nat.lt_irrefl _ (hs.acks_lt _ hmem)
  have hacks : ∀ j ∈ s.acks, j < s.delivered + 1 := fun j hj => Nat.lt_succ_of_lt (hs.acks_lt j hj)
  obtain ⟨n, hn, hrun⟩ := hs.acks_range
  have hn' : n = s.delivered := by simpa [hidle] using hrun hdown
  cases hf : seg.final <;>
    refine ⟨hs.acks_sorted, hacks, ?_, ?_, ?_, ?_, hs.finalAcked, hs.queue_suffix, hs.queue_le,
      hs.memory2_eq, ⟨n, hn, fun _ => by simp [hf, hn']⟩⟩ <;>
    simp [hf, hr, reassembleStep, he, hb, hnot, hseg]

theorem Inv.enqueue {s s' : Incr} (hs : Inv segs cap s) (h : step segs cap s .enqueue = some s') :
    Inv segs cap s' := by
  obtain ⟨k, bs, hsel, hlt, rfl⟩ := step_enqueue h
  obtain ⟨he, hr2, -⟩ := hs.selecting k bs hsel
  obtain ⟨n, hn, hrun⟩ := hs.acks_range
  refine ⟨hs.acks_sorted, hs.acks_lt, ?_, he ▸ List.prefix_refl _, by simp,
    fun _ _ => ⟨he, hr2.symm⟩,
    fun j hj hf => (hs.finalAcked j hj hf).trans (List.prefix_append _ _), ?_, ?_, ?_,
    ⟨n, hn, fun hd => by simpa [hsel] using hrun hd⟩⟩
  · intro k' hk'
    obtain rfl : k' = k := (by simpa using hk' : k = k').symm
    exact hs.inFlight k' (.inr ⟨bs, hsel⟩)
  · obtain ⟨t, ht⟩ := hs.queue_suffix
    exact ⟨t, by simp [← ht]⟩
  · simp only [List.length_append, List.length_singleton]; omega
  · simp [hs.memory2_eq]

theorem Inv.quit {s s' : Incr} (hs : Inv segs cap s) (h : step segs cap s .quit = some s') :
    Inv segs cap s' := by
  obtain ⟨-, hdown, rfl⟩ := step_quit h
  exact ⟨hs.acks_sorted, hs.acks_lt, by simp, hs.enqueued_prefix, by simp, by simp [hdown],
    hs.finalAcked, hs.queue_suffix, hs.queue_le, hs.memory2_eq,
    hs.acks_range.imp fun _ h => ⟨h.1, by simp [hdown]⟩⟩

theorem Inv.reply {s s' : Incr} (hs : Inv segs cap s) (h : step segs cap s .reply = some s') :
    Inv segs cap s' := by
  obtain ⟨k, hrep, rfl⟩ := step_reply h
  obtain ⟨hk, hnot⟩ := hs.inFlight k (.inl hrep)
  obtain ⟨n, hn, hrun⟩ := hs.acks_range
  cases hdown : s.shutdown
  · -- the ack is published
    obtain ⟨he, hb⟩ := hs.running hdown (by simp [hrep])
    have hlt : ∀ j ∈ s.acks, j < k := fun j hj => by
      have := hs.acks_lt j hj
      have : j ≠ k := fun h => hnot (h ▸ hj)
      omega
    simp only [Bool.false_eq_true, ↓reduceIte]
    have hnk : n = k := by have := hrun hdown; simp [hrep] at this; omega
    refine ⟨?_, ?_, by simp, hs.enqueued_prefix, by simp, fun _ _ => ⟨he, hb⟩, ?_, hs.queue_suffix,
      hs.queue_le, hs.memory2_eq,
      ⟨k + 1, by rw [hn, hnk, List.range_succ], fun _ => by simp [hk]⟩⟩
    · rw [List.Sorted, List.pairwise_append]
      exact ⟨hs.acks_sorted, List.pairwise_singleton _ _,
        fun a ha b hb => (List.mem_singleton.1 hb) ▸ hlt a ha⟩
    · simp only [List.mem_append, List.mem_singleton]
      rintro j (hj | rfl)
      · exact hs.acks_lt j hj
      · omega
    · simp only [List.mem_append, List.mem_singleton]
      rintro j (hj | rfl) hf
      · exact hs.finalAcked j hj hf
      · rw [hk, he]
  · -- the publish fails on the closed connection
    simpa [hdown] using (⟨hs.acks_sorted, hs.acks_lt, by simp, hs.enqueued_prefix, by simp,
      by simp [hdown], hs.finalAcked, hs.queue_suffix, hs.queue_le, hs.memory2_eq,
      ⟨n, hn, by simp [hdown]⟩⟩ : Inv segs cap { s with callback := .idle })

theorem Inv.consume {s s' : Incr} (hs : Inv segs cap s) (h : step segs cap s .consume = some s') :
    Inv segs cap s' := by
  obtain ⟨p, q, hq, rfl⟩ := step_consume h
  have hle := hs.queue_le
  rw [hq] at hle
  exact ⟨hs.acks_sorted, hs.acks_lt, hs.inFlight, hs.enqueued_prefix, hs.selecting, hs.running,
    hs.finalAcked, (List.suffix_cons p q).trans (hq ▸ hs.queue_suffix),
    Nat.le_of_succ_le hle, hs.memory2_eq, hs.acks_range⟩

theorem Inv.shutdown {s : Incr} (hs : Inv segs cap s) : Inv segs cap { s with shutdown := true } :=
  ⟨hs.acks_sorted, hs.acks_lt, hs.inFlight, hs.enqueued_prefix, hs.selecting, nofun,
    hs.finalAcked, hs.queue_suffix, hs.queue_le, hs.memory2_eq,
    hs.acks_range.imp fun _ h => ⟨h.1, nofun⟩⟩

theorem Inv.step {s s' : Incr} {a : Action} (hs : Inv segs cap s)
    (h : step segs cap s a = some s') :
    Inv segs cap s' := by
  cases a with
  | deliver => exact hs.deliver h
  | enqueue => exact hs.enqueue h
  | quit => exact hs.quit h
  | reply => exact hs.reply h
  | consume => exact hs.consume h
  | shutdown =>
    cases h
    exact hs.shutdown

/-! ## Every run -/

theorem Inv.exec {s s' : Incr} {as : List Action} (hs : Inv segs cap s)
    (h : exec segs cap s as = some s') : Inv segs cap s' := by
  induction as generalizing s with
  | nil => cases h; exact hs
  | cons a as ih =>
    simp only [Incr.exec, Option.bind_eq_some] at h
    obtain ⟨s1, h1, h2⟩ := h
    exact ih (hs.step h1) h2

/-- Over every run from `init`, on any segments and any capacity: the segments are acknowledged
once each and in arrival order, and only segments NATS has handed over; a final segment only
once the message it completes is on the queue; the payloads put on the queue are the messages
reassembled from the segments, in order, and all of them whenever the callback has returned
and `Shutdown` has not run; `memory2` is the sum of their lengths; the queue never holds more
than `cap` payloads. -/
theorem exec_acks_and_payloads {as : List Action} {s : Incr} (h : exec segs cap init as = some s) :
    s.acks.Sorted (· < ·) ∧ (∀ k ∈ s.acks, k < s.delivered) ∧
      (∀ k ∈ s.acks, (segs.get? k).map (·.final) = some true →
        (reassemble (segs.take (k + 1))).1 <+: s.enqueued) ∧
      s.enqueued <+: (reassemble (segs.take s.delivered)).1 ∧
      (s.shutdown = false → s.callback = .idle →
        s.enqueued = (reassemble (segs.take s.delivered)).1) ∧
      s.memory2 = (s.enqueued.map List.length).sum ∧ s.queue.length ≤ cap := by
  have hs := inv_init.exec h
  exact ⟨hs.acks_sorted, hs.acks_lt, hs.finalAcked, hs.enqueued_prefix,
    fun hd hi => (hs.running hd (by simp [hi])).1, hs.memory2_eq, hs.queue_le⟩

theorem exec_acks_and_payloads_two_segments :
    exec [⟨[1], false⟩, ⟨[2], true⟩] 1 init [.deliver, .reply, .deliver, .enqueue, .reply] =
        some ⟨2, ⟨[]⟩, .idle, [[1, 2]], 2, false, [0, 1], [[1, 2]]⟩ ∧
      ([0, 1] : List Nat).Sorted (· < ·) ∧ (∀ k ∈ [0, 1], k < 2) ∧
      (∀ k ∈ [0, 1],
        (([⟨[1], false⟩, ⟨[2], true⟩] : List Segment).get? k).map (·.final) = some true →
        (reassemble (([⟨[1], false⟩, ⟨[2], true⟩] : List Segment).take (k + 1))).1 <+: [[1, 2]]) ∧
      [[1, 2]] <+: (reassemble (([⟨[1], false⟩, ⟨[2], true⟩] : List Segment).take 2)).1 ∧
      (false = false → Callback.idle = .idle →
        [[1, 2]] = (reassemble (([⟨[1], false⟩, ⟨[2], true⟩] : List Segment).take 2)).1) ∧
      2 = ([[1, 2]].map List.length).sum ∧ [[1, 2]].length ≤ 1 :=
  ⟨by decide, @exec_acks_and_payloads [⟨[1], false⟩, ⟨[2], true⟩] 1
    [.deliver, .reply, .deliver, .enqueue, .reply]
    ⟨2, ⟨[]⟩, .idle, [[1, 2]], 2, false, [0, 1], [[1, 2]]⟩
    (by decide)⟩

/-! ## No ack is lost -/

/-- No ack is lost while the applier runs: over every run from `init`, on any segments and any
capacity, the acks published are the segments `0, …, n - 1`, none skipped, and while `Shutdown`
has not run `n` counts every segment NATS has handed over but the one the callback still holds. -/
theorem exec_no_lost_ack {as : List Action} {s : Incr} (h : exec segs cap init as = some s) :
    ∃ n, s.acks = List.range n ∧
      (s.shutdown = false → n = if s.callback = .idle then s.delivered else s.delivered - 1) :=
  (inv_init.exec h).acks_range

theorem exec_no_lost_ack_in_flight :
    let segs : List Segment := [⟨[1], false⟩, ⟨[2], true⟩]
    let s : Incr := ⟨2, ⟨[1, 2]⟩, .selecting 1 [1, 2], [], 0, false, [0], []⟩
    exec segs 1 init [.deliver, .reply, .deliver] = some s ∧
      ∃ n, s.acks = List.range n ∧ (s.shutdown = false →
        n = if s.callback = .idle then s.delivered else s.delivered - 1) := by
  intro segs s
  have h : exec segs 1 init [.deliver, .reply, .deliver] = some s := by decide
  exact ⟨h, exec_no_lost_ack h⟩

end

/-- A final segment on an empty queue of capacity 1: its message fills the queue, and the ack is
published with the queue full. -/
theorem final_ack_while_queue_full :
    ∃ s, exec [⟨[1], true⟩] 1 init [.deliver, .enqueue] = some s ∧ s.queue.length = 1 ∧
      (step [⟨[1], true⟩] 1 s .reply).map (·.acks) = some [0] :=
  ⟨_, rfl, rfl, rfl⟩

end Incr

end Applier
end Dtle
