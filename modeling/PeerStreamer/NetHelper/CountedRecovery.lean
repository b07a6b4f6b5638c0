import PeerStreamer.NetHelper.ComingToRest
import PeerStreamer.NetHelper.CountedTransfer

/-!
# Recovery, with the references counted

What is known of two network managers, that lost fragments are recovered (`recovery`) and that a
fair schedule does recover them (`recovery_fair`), holds of the two processes as long as the
references to one node structure never reach `2 ^ 16` (`recovery_counted`,
`recovery_fair_counted`).

In both, the requests of the receiver have to be carried to the sender although they are addressed
to the receiver itself: a request that goes where it is addressed is lost.
-/

namespace PeerStreamer

variable (ic : IntCoding) (l : Link)

/-- The datagram `d` is under way, with a fragment of the packet `pid`, of which the last fragment
is this one or is there. -/
structure Arriving (packets : List Bytes) (s : Transfer) (d : Bytes) (pid i : ℕ) (data : Bytes) :
    Prop where
  underWay : d ∈ s.toReceiver
  fragment : datagramId ic l d = some (pid, i)
  packet : packets[pid]? = some data
  last : i + 1 = cutCount data.length l.fragSize
    ∨ s.receiver.holdsSlot l.senderNode (pid, cutCount data.length l.fragSize - 1) = true

/-- The packet can be popped as it was sent, by any call that is careful and not too late. -/
def Poppable (t₀ : ℤ) (s : WithCounters (Surrounded Transfer PeerNode) PeerNode) (pid : ℕ)
    (data : Bytes) : Prop :=
  ∀ t, t < t₀ + l.age → (transferProgram ic l).Careful (2 ^ 16) s (.call (.pop pid t)) →
    ∃ s', countedTransfer ic l s (.call (.pop pid t))
      = .ok (s', some (some (pid, 0, data, data.length)))

/-- The run goes through.  If the datagram that is delivered in it is one of a packet whose last
fragment is there by then, and nothing is queued or under way at the end, the packet has been handed
out as it was sent, or it can be popped. -/
def Recovers (t₀ : ℤ) (pre : List TransferHappening) (d : Bytes) (tSweep tCreate : ℤ)
    (post : List TransferHappening) : Prop :=
  ∃ s₁ outs₁ s outs, exec (countedTransfer ic l) (startedTransfer l) pre = .ok (s₁, outs₁)
    ∧ exec (countedTransfer ic l) s₁ (.call (.deliver d tSweep tCreate) :: post) = .ok (s, outs)
    ∧ ∀ pid i data,
      Arriving ic l (enqueued (Happening.calls pre)) s₁.state.program d pid i data →
      s.state.program.AtRest →
      (pid, 0, data, data.length) ∈ handouts outs.reduceOption ∨ Poppable ic l t₀ s pid data

variable {ic l} {t₀ : ℤ}

/-- **Lost fragments are recovered**, in every run in which the references to one node structure
never reach `2 ^ 16`.  When the last fragment of a packet is there, the arrival of any of its
fragments is enough: if nothing is lost from then on, so that every request is carried to the
sender, and nothing expires, then by the time nothing is queued or under way any more the packet has
been handed out as it was sent, or it can be popped. -/
theorem recovery_counted (hic : ic.Inverse (2 ^ 31)) {pre post : List TransferHappening} {d : Bytes}
    {tSweep tCreate : ℤ}
    (ht : Timely l t₀
      (Happening.calls pre ++ .deliver d tSweep tCreate :: Happening.calls post))
    (hlose : ∀ a ∈ Happening.calls post, ¬ a.Loses)
    (hcareful : Along (countedTransfer ic l) ((transferProgram ic l).Careful (2 ^ 16))
      (startedTransfer l) (pre ++ .call (.deliver d tSweep tCreate) :: post)) :
    Recovers ic l t₀ pre d tSweep tCreate post := by
  have hcalls : Happening.calls (pre ++ .call (.deliver d tSweep tCreate) :: post)
      = Happening.calls pre ++ .deliver d tSweep tCreate :: Happening.calls post :=
    List.filterMap_append
  obtain ⟨s, outs, hexec, -, hinv, hcounted⟩ := transferProgram_run hic
    (by rw [hcalls]; exact ht.ids) (by rw [hcalls]; exact ht.packets) hcareful
  obtain ⟨s₁, outs₁, outs₂, hpre, hpost, -⟩ := exec_append_eq_ok.mp hexec
  refine ⟨s₁, outs₁, s, outs₂, hpre, hpost, fun pid i data harrives hrest => ?_⟩
  refine (recovery hic ht (SharedProgram.exec_program hpre) harrives.underWay harrives.fragment
    harrives.packet harrives.last (SharedProgram.exec_program hpost) hlose hrest).imp_right ?_
  intro hpop t hlt hcall
  obtain ⟨s', hstep⟩ := hpop t hlt
  obtain ⟨c, hcounted', -⟩ := (transferProgram_respects ic l).call (M := s.state.owned) hinv
    hcounted hcall.1 trivial hcall.2 hstep
  exact ⟨_, hcounted'⟩

/-- The two processes have nodes, a packet of two fragments is sent, and the first one is lost. -/
def firstLostHappenings : List TransferHappening :=
  (bothNodes threeByteLink).map .other ++ firstLost.map .call

/-- The packet is recovered, and not popped yet. -/
theorem recovery_counted_firstLost :
    ∃ s outs, exec (countedTransfer bigEndian threeByteLink) (startedTransfer threeByteLink)
        (firstLostHappenings ++ .call (.deliver lastDatagram 1 1) :: sentAgain.map .call)
        = .ok (s, outs)
      ∧ Poppable bigEndian threeByteLink 0 s 0 [1, 2, 3, 4] := by
  have hall : Recovers bigEndian threeByteLink 0 firstLostHappenings lastDatagram 1 1
      (sentAgain.map .call) :=
    recovery_counted (bigEndian_inverse.mono (by decide)) ⟨by decide, by decide, by decide⟩
      (by decide) (by decide +kernel)
  obtain ⟨s₁, outs₁, s, outs, hpre, hpost, hrecovers⟩ := hall
  have hstart : s₁.state.program = recoveredState 0 :=
    (ok_unique (SharedProgram.exec_program hpre) exec_firstLost).1
  have hplain : exec (Transfer.step bigEndian threeByteLink) s₁.state.program
      (.deliver lastDatagram 1 1 :: sentAgain) = .ok (s.state.program, outs.reduceOption) :=
    SharedProgram.exec_program hpost
  rw [hstart] at hplain
  have hend : (exec (Transfer.step bigEndian threeByteLink) (recoveredState 0)
      (.deliver lastDatagram 1 1 :: sentAgain)).map (fun r => decide ((r.1.sender.outqueue = []
        ∧ r.1.receiver.outqueue = [] ∧ r.1.toReceiver = [] ∧ r.1.toSender = [])
        ∧ handouts r.2 = [])) = .ok true := by decide +kernel
  rw [hplain] at hend
  obtain ⟨⟨hsender, hreceiver, htoReceiver, htoSender⟩, hnone⟩ :=
    of_decide_eq_true (Except.ok.inj hend)
  refine ⟨s, _, exec_append_eq_ok.mpr ⟨s₁, outs₁, outs, hpre, hpost, rfl⟩, ?_⟩
  refine (hrecovers 0 1 [1, 2, 3, 4] ⟨?_, by decide, by decide, Or.inl (by decide)⟩
    ⟨hsender, hreceiver, htoReceiver, htoSender⟩).resolve_left ?_
  · rw [hstart]
    decide +kernel
  · rw [hnone]
    exact List.not_mem_nil

/-! ## Runs without end -/

/-- No packet is sent, nothing expires and nothing is lost. -/
def Action.Quiet (l : Link) (t₀ : ℤ) (a : Action) : Prop :=
  a.packet = none ∧ a.Within l t₀ ∧ ¬ a.Loses

instance (l : Link) (t₀ : ℤ) (a : Action) : Decidable (a.Quiet l t₀) :=
  inferInstanceAs (Decidable (_ ∧ _ ∧ _))

/-- The run goes on for ever.  If the datagram that is delivered first in it is one of a packet
whose last fragment is there by then, and nothing is put off for ever, the packet is handed out as
it was sent. -/
def RecoversInTheEnd (ic : IntCoding) (l : Link) (pre : List TransferHappening) (d : Bytes)
    (happens : ℕ → TransferHappening) : Prop :=
  ∃ (st : ℕ → WithCounters (Surrounded Transfer PeerNode) PeerNode)
    (out : ℕ → Option (Option Handout)) (outs : List (Option (Option Handout))),
    exec (countedTransfer ic l) (startedTransfer l) pre = .ok (st 0, outs)
    ∧ (∀ k, countedTransfer ic l (st k) (happens k) = .ok (st (k + 1), out k))
    ∧ ∀ pid i data,
      Arriving ic l (enqueued (Happening.calls pre)) (st 0).state.program d pid i data →
      Fair (fun k a => happens k = .call a) (fun k => (st k).state.program) →
      ∃ k, out k = some (some (pid, 0, data, data.length))

section Endless

variable {happens : ℕ → TransferHappening}

/-- To pop a packet that is not ready is to do nothing. -/
lemma exists_idle (ic : IntCoding) (l : Link) (s : Transfer) (t : ℤ) :
    ∃ pid, Transfer.step ic l s (.pop pid t) = .ok (s, none) := by
  obtain ⟨pid, hpid⟩ := Infinite.exists_notMem_finset s.ready.toFinset
  rw [List.mem_toFinset] at hpid
  exact ⟨pid, by rw [Transfer.step, if_neg hpid]; rfl⟩

/-- **A run without end, with the counters**, is one without: where the surroundings do something,
the two network managers do nothing. -/
lemma exists_continues (hage : 0 < l.age)
    {st : ℕ → WithCounters (Surrounded Transfer PeerNode) PeerNode}
    {out : ℕ → Option (Option Handout)}
    (hstep : ∀ k, countedTransfer ic l (st k) (happens k) = .ok (st (k + 1), out k))
    (hquiet : ∀ k a, happens k = .call a → a.Quiet l t₀) :
    ∃ acts, Continues ic l t₀ acts (fun k => (st k).state.program) (fun k => (out k).join)
      ∧ (∀ k a, happens k = .call a → acts k = a) ∧ ∀ k, ¬ (acts k).Loses := by
  have hone : ∀ k, ∃ act : Action, act.Quiet l t₀
      ∧ Transfer.step ic l (st k).state.program act = .ok ((st (k + 1)).state.program, (out k).join)
      ∧ ∀ a, happens k = .call a → act = a := by
    intro k
    have hk := hstep k
    cases hhappens : happens k with
    | call a =>
        rw [hhappens] at hk
        obtain ⟨b, hrun, hb, -⟩ := SharedProgram.countedStep_call hk
        refine ⟨a, hquiet k a hhappens, by rw [hb]; exact hrun, fun a' he => ?_⟩
        exact Happening.call.inj he
    | other op =>
        rw [hhappens] at hk
        obtain ⟨hsame, hnone⟩ := SharedProgram.countedStep_other hk
        obtain ⟨pid, hidle⟩ := exists_idle ic l (st k).state.program t₀
        refine ⟨.pop pid t₀, ⟨rfl, fun t ht => ?_, id⟩, ?_, fun a he => by cases he⟩
        · obtain rfl := List.mem_singleton.mp ht
          omega
        · rw [hsame, hnone]
          exact hidle
  choose acts hacts hruns hcalls using hone
  exact ⟨acts, ⟨hruns, fun k => (hacts k).1, fun k => (hacts k).2.1⟩, hcalls,
    fun k => (hacts k).2.2⟩

/-- Without packets nothing is enqueued. -/
lemma enqueued_calls (hquiet : ∀ k a, happens k = .call a → a.Quiet l t₀)
    (pre : List TransferHappening) (k : ℕ) :
    enqueued (Happening.calls (pre ++ (List.range k).map happens))
      = enqueued (Happening.calls pre) := by
  have hnone : enqueued (Happening.calls ((List.range k).map happens)) = [] := by
    rw [enqueued, List.filterMap_eq_nil_iff]
    intro a ha
    obtain ⟨i, hi, hcall⟩ := List.mem_filterMap.mp ha
    obtain ⟨j, -, rfl⟩ := List.mem_map.mp hi
    cases hhappens : happens j with
    | call a' =>
        rw [hhappens] at hcall
        obtain rfl := Option.some.inj hcall
        exact (hquiet j a' hhappens).1
    | other op =>
        rw [hhappens] at hcall
        cases hcall
  rw [Happening.calls, List.filterMap_append, enqueued_append]
  exact (congrArg (_ ++ ·) hnone).trans (List.append_nil _)

/-- **Lost fragments are recovered in the end**, in every run without end in which the references to
one node structure never reach `2 ^ 16`.  When the last fragment of a packet is there and one of its
fragments arrives, then under a schedule that puts nothing off for ever, and that loses nothing from
then on, so that every request is carried to the sender, the packet is handed out as it was
sent. -/
theorem recovery_fair_counted (hic : ic.Inverse (2 ^ 31)) {pre : List TransferHappening}
    (ht : Timely l t₀ (Happening.calls pre))
    (hquiet : ∀ k a, happens k = .call a → a.Quiet l t₀) {d : Bytes} {tSweep tCreate : ℤ}
    (hfirst : happens 0 = .call (.deliver d tSweep tCreate))
    (hcareful : ∀ k, Along (countedTransfer ic l) ((transferProgram ic l).Careful (2 ^ 16))
      (startedTransfer l) (pre ++ (List.range k).map happens)) :
    RecoversInTheEnd ic l pre d happens := by
  have hrun : ∀ k, ∃ s outs, exec (countedTransfer ic l) (startedTransfer l)
      (pre ++ (List.range k).map happens) = .ok (s, outs) := by
    intro k
    obtain ⟨s, outs, hexec, -⟩ := transferProgram_run hic
      (by rw [enqueued_calls hquiet]; exact ht.ids)
      (by rw [enqueued_calls hquiet]; exact ht.packets) (hcareful k)
    exact ⟨s, outs, hexec⟩
  obtain ⟨s₀, outs, hpre⟩ : ∃ s₀ outs, exec (countedTransfer ic l) (startedTransfer l) pre
      = .ok (s₀, outs) := by simpa using hrun 0
  have hrest : ∀ k, ∃ s outs, exec (countedTransfer ic l) s₀ ((List.range k).map happens)
      = .ok (s, outs) := by
    intro k
    obtain ⟨s, outs', hexec⟩ := hrun k
    obtain ⟨s₁, outs₁, outs₂, hpre', hpost, -⟩ := exec_append_eq_ok.mp hexec
    obtain ⟨rfl, -⟩ := ok_unique hpre hpre'
    exact ⟨s, outs₂, hpost⟩
  obtain ⟨st, out, rfl, hstep⟩ := exists_endless hrest
  refine ⟨st, out, outs, hpre, hstep, fun pid i data harrives hfair => ?_⟩
  -- the delivery is in time, so that there is time at all
  have hage : 0 < l.age := by
    have hwithin := (hquiet 0 _ hfirst).2.1 tSweep (by simp [Action.times])
    omega
  obtain ⟨acts, hcontinues, hacts, hlose⟩ := exists_continues hage hstep hquiet
  obtain ⟨k, hk⟩ := recovery_fair hcontinues hic ht (SharedProgram.exec_program hpre) hlose
    (hfair.mono hacts) (hacts 0 _ hfirst) harrives.underWay harrives.fragment harrives.packet
    harrives.last
  exact ⟨k, Option.join_eq_some_iff.mp hk⟩

end Endless

/-! ## A fragment lost and recovered -/

/-- Who has nodes and makes only calls can make those that look for something to send. -/
lemma careful_of_calls {as : List Action} {s : WithCounters (Surrounded Transfer PeerNode) PeerNode}
    {outs : List (Option (Option Handout))}
    (h : exec (countedTransfer ic l) (startedTransfer l)
      ((bothNodes l).map .other ++ as.map .call) = .ok (s, outs)) (k : ℕ) :
    (transferProgram ic l).Careful (2 ^ 16) s
      (.call (if k % 2 = 0 then .transmit else .request true)) := by
  obtain ⟨s₁, outs₁, outs₂, hothers, hcalls, -⟩ := exec_append_eq_ok.mp h
  have hmade : exec (transferProgram ic l).surroundedStep (startedTransfer l).state
      ((bothNodes l).map Happening.other) = .ok (⟨Transfer.init l, {.inr l.receiverNode,
        .inr l.senderNode, .inl l.receiverNode, .inl l.senderNode}⟩, [none, none, none, none]) :=
    rfl
  obtain ⟨hstate, -⟩ := ok_unique hmade (Sharing.exec_state hothers)
  have howned := SharedProgram.owned_le_of_calls hcalls
  rw [← hstate] at howned
  have hpassed : ∀ x ∈ [Sum.inl l.senderNode, .inl l.receiverNode, .inr l.senderNode,
      .inr l.receiverNode], x ∈ s.state.owned := fun x hx => Multiset.mem_of_le howned (by
    simp only [List.mem_cons, List.not_mem_nil, or_false] at hx
    rcases hx with rfl | rfl | rfl | rfl
    all_goals simp)
  split_ifs
  · exact ⟨⟨hpassed, by simp [transferProgram]⟩, show Fits (2 ^ 16) _ [] from trivial⟩
  · exact ⟨⟨hpassed, by simp [transferProgram]⟩, show Fits (2 ^ 16) _ [] from trivial⟩

/-- The fragment is asked for and sent again, and from then on both look for something to send. -/
def recoveredHappening (k : ℕ) : TransferHappening := .call (recoveredAction k)

/-- At no time are there too many references. -/
lemma recovered_careful (k : ℕ) : Along (countedTransfer bigEndian threeByteLink)
    ((transferProgram bigEndian threeByteLink).Careful (2 ^ 16)) (startedTransfer threeByteLink)
    (firstLostHappenings ++ (List.range k).map recoveredHappening) := by
  by_cases hk : k < 7
  · revert k
    decide +kernel
  · rw [not_lt] at hk
    induction k, hk using Nat.le_induction with
    | base => decide +kernel
    | succ k hk ih =>
        rw [List.range_succ, List.map_append, ← List.append_assoc, along_append]
        refine ⟨ih, fun s outs hexec => ⟨?_, fun _ _ _ => trivial⟩⟩
        rw [recoveredHappening, recoveredAction_of_le (by omega)]
        have hcalls : exec (countedTransfer bigEndian threeByteLink) (startedTransfer threeByteLink)
            ((bothNodes threeByteLink).map .other
              ++ (firstLost ++ (List.range k).map recoveredAction).map .call)
            = .ok (s, outs) := by
          rw [← hexec, firstLostHappenings, List.append_assoc, List.map_append, List.map_map]
          rfl
        exact careful_of_calls hcalls k

theorem recovery_fair_counted_recovered :
    ∃ (st : ℕ → WithCounters (Surrounded Transfer PeerNode) PeerNode)
      (out : ℕ → Option (Option Handout)),
      (∀ k, countedTransfer bigEndian threeByteLink (st k) (recoveredHappening k)
        = .ok (st (k + 1), out k))
      ∧ ∃ k, out k = some (some (0, 0, [1, 2, 3, 4], 4)) := by
  have ht : Timely threeByteLink 0 (Happening.calls firstLostHappenings) :=
    ⟨by decide, by decide, by decide⟩
  have hquiet : ∀ k a, recoveredHappening k = .call a → a.Quiet threeByteLink 0 := by
    intro k a ha
    obtain rfl := Happening.call.inj ha
    exact recoveredAction_all (P := fun a => a.Quiet threeByteLink 0) (by decide) (by decide)
      (by decide) k
  have hfirst : recoveredHappening 0 = .call (.deliver lastDatagram 1 1) := rfl
  obtain ⟨st, out, outs, hpre, hstep, hrecovers⟩ := recovery_fair_counted
    (bigEndian_inverse.mono (by decide)) ht hquiet hfirst recovered_careful
  -- the two network managers go through the states of the run without counters
  have hsame : ∀ k, (st k).state.program = recoveredState k := by
    intro k
    induction k with
    | zero => exact (ok_unique (SharedProgram.exec_program hpre) exec_firstLost).1
    | succ k ih =>
        obtain ⟨b, hrun, -, -⟩ := SharedProgram.countedStep_call (hstep k)
        rw [ih] at hrun
        exact (ok_unique hrun (recovered_continues.step k)).1
  refine ⟨st, out, hstep, hrecovers 0 1 [1, 2, 3, 4] ⟨?_, by decide, by decide, Or.inl (by decide)⟩
    ?_⟩
  · rw [hsame]
    decide +kernel
  · simp only [hsame]
    exact recovered_fair.mono fun k a ha => congrArg Happening.call ha

end PeerStreamer
