import PeerStreamer.NetHelper.Runs

/-!
# What the outgoing fragments are

Outgoing fragments are made by cutting a packet and never change afterwards, except for their list
link.  So what holds of every fragment when it is cut, and does not depend on the link, holds of
every stored fragment for ever, and of every fragment popped from the queue: `EveryOutgoing Q` is
kept by every operation.
-/

namespace PeerStreamer

/-- Every stored outgoing fragment satisfies `Q`. -/
def NetworkManager.EveryOutgoing (nm : NetworkManager) (Q : Fragment → Prop) : Prop :=
  ∀ n e, nm.endpoint n = some e → ∀ pid fp, e.outgoing.lookup pid = some fp → ∀ f ∈ fp.frags, Q f

/-- `Q` does not look at the list link. -/
def LinkBlind (Q : Fragment → Prop) : Prop := ∀ f b, Q f → Q { f with linked := b }

lemma networkManagerCreate_everyOutgoing (config : NetworkConfig) (Q : Fragment → Prop) :
    (networkManagerCreate config).EveryOutgoing Q := by
  intro n e he
  simp at he

namespace NetworkManager.EveryOutgoing

variable {nm : NetworkManager} {Q : Fragment → Prop} {dst : NodeID} {e : Endpoint} {q : MsgList}

lemma mono (h : nm.EveryOutgoing Q) {Q' : Fragment → Prop} (hQ : ∀ f, Q f → Q' f) :
    nm.EveryOutgoing Q' :=
  fun n e he pid fp hl f hf => hQ f (h n e he pid fp hl f hf)

lemma endpointFor (h : nm.EveryOutgoing Q) (n : NodeID) :
    ∀ pid fp, (nm.endpointFor n).outgoing.lookup pid = some fp → ∀ f ∈ fp.frags, Q f := by
  cases he : nm.endpoint n with
  | some e =>
      rw [endpointFor_of_some he]
      exact h n e he
  | none =>
      rw [endpointFor_of_none he]
      intro pid fp hl
      simp [endpointCreate] at hl

lemma put (h : nm.EveryOutgoing Q) (hwf : nm.Wf) (hnode : nodeidEqual e.node dst)
    (he : ∀ pid fp, e.outgoing.lookup pid = some fp → ∀ f ∈ fp.frags, Q f) :
    (nm.put dst e q).EveryOutgoing Q :=
  hwf.forall_put hnode (P := fun e => ∀ pid fp, e.outgoing.lookup pid = some fp →
    ∀ f ∈ fp.frags, Q f) h he

lemma enqueued (h : nm.EveryOutgoing Q) (hwf : nm.Wf) {src : NodeID} {data : Bytes}
    {tSweep tCreate : ℤ} (hfree : nm.IdFree dst tSweep)
    (hcut : ∀ f ∈ (nm.endpointFor dst).cut src data, Q f) :
    (nm.enqueued src dst data tSweep tCreate).EveryOutgoing Q := by
  have hout := (hwf.endpointFor_wf dst).outgoing
  refine h.put hwf (hwf.endpointFor_node dst) fun pid fp hl => ?_
  rw [Endpoint.enqueued_lookup hout hfree] at hl
  split_ifs at hl
  · obtain rfl := Option.some.inj hl
    exact hcut
  · exact h.endpointFor dst pid fp (hout.lookup_of_fresh hl)

lemma link (h : nm.EveryOutgoing Q) (hQ : LinkBlind Q) (hwf : nm.Wf)
    (he : nm.endpoint dst = some e) {out : PacketBucket} (hout : out.Wf)
    (hsub : ∀ pid fp, out.lookup pid = some fp → e.outgoing.lookup pid = some fp)
    {fp : FragmentedPacket} {pid id : ℕ} {b : Bool} (hfp : out.lookup pid = some fp) :
    (nm.link { e with outgoing := out } fp id b q).EveryOutgoing Q := by
  have hnode := hwf.nodeidEqual_of_endpoint he
  rw [NetworkManager.link, ← put_of_some he]
  refine h.put hwf hnode fun pid' fp' hl => ?_
  simp only [hout.lookup_store] at hl
  split_ifs at hl
  · obtain ⟨-, -, rfl⟩ := Option.map_eq_some_iff.mp hl
    intro f hf
    obtain ⟨i, hi⟩ := List.mem_iff_getElem?.mp hf
    obtain ⟨f₀, hf₀, rfl⟩ := FragmentedPacket.relink_getElem?.mp hi
    have hQ₀ := h dst e he pid fp (hsub pid fp hfp) f₀ (List.mem_of_getElem? hf₀)
    split_ifs
    · exact hQ f₀ b hQ₀
    · exact hQ₀
  · exact h dst e he pid' fp' (hsub pid' fp' hl)

lemma refreshed (h : nm.EveryOutgoing Q) (hwf : nm.Wf) (dst : NodeID) (t : ℤ) :
    (nm.refreshed dst t).EveryOutgoing Q := by
  cases he : nm.endpoint dst with
  | none => rwa [NetworkManager.refreshed, he]
  | some e =>
      have hnode := hwf.nodeidEqual_of_endpoint he
      rw [refreshed_of_some he]
      exact h.put hwf (e := e.refreshed t) hnode fun pid fp hl =>
        h dst e he pid fp ((hwf.endpoint_wf he).outgoing.lookup_of_fresh hl)

lemma enqueueFragment (h : nm.EveryOutgoing Q) (hQ : LinkBlind Q) (hinv : nm.OutqueueInv)
    (dst : NodeID) (pid fid : ℕ) (t : ℤ) :
    (networkManagerEnqueueOutgoingFragment nm dst pid fid t).1.EveryOutgoing Q := by
  have hrefr := h.refreshed hinv.wf dst t
  rcases networkManagerEnqueueOutgoingFragment_cases hinv dst pid fid t with
    ⟨-, heq⟩ | ⟨e, fp, f, he, hl, -, -, heq⟩
  · rw [heq]
    exact hrefr
  · have hout := (hinv.wf.endpoint_wf he).outgoing
    rw [heq]
    split_ifs
    · exact hrefr
    · exact h.link hQ hinv.wf he (hout.fresh t) (fun _ _ => hout.lookup_of_fresh) hl

lemma arrived (h : nm.EveryOutgoing Q) (hwf : nm.Wf) (f : Fragment) (tSweep tCreate : ℤ) :
    (nm.arrived f tSweep tCreate).EveryOutgoing Q :=
  h.put hwf (hwf.endpointFor_node f.fromNode) (h.endpointFor f.fromNode)

lemma popped (h : nm.EveryOutgoing Q) (hwf : nm.Wf) (src : NodeID) (pid : ℕ) (t : ℤ) :
    (nm.popped src pid t).EveryOutgoing Q := by
  cases he : nm.endpoint src with
  | none => rwa [NetworkManager.popped, he]
  | some e =>
      have hnode := hwf.nodeidEqual_of_endpoint he
      rw [NetworkManager.popped, he]
      exact h.put hwf hnode (h src e he)

/-- The fragments found through the queue satisfy `Q`. -/
lemma slot (h : nm.EveryOutgoing Q) {pid i : ℕ} {f : Fragment}
    (hf : nm.slot dst pid i = some f) : Q f := by
  obtain ⟨e, fp, he, hl, hi⟩ := slot_eq_some.mp hf
  exact h dst e he pid fp hl f (List.mem_of_getElem? hi)

/-- **Popping a message** keeps what holds of the fragments, and yields one of which it holds. -/
theorem popMsg (h : nm.EveryOutgoing Q) (hQ : LinkBlind Q) (hinv : nm.OutqueueInv)
    {nm' : NetworkManager} {m : Option NetMessage}
    (hpop : networkManagerPopOutgoingNetMsg nm = .ok (nm', m)) :
    nm'.EveryOutgoing Q ∧ ∀ f, m = some (.fragment f) → Q f := by
  cases hq : nm.outqueue with
  | nil =>
      rw [networkManagerPopOutgoingNetMsg, hq] at hpop
      cases hpop
      exact ⟨h, fun f hf => by simp at hf⟩
  | cons el q =>
      cases el with
      | request r =>
          rw [networkManagerPopOutgoingNetMsg, hq] at hpop
          cases hpop
          exact ⟨h, fun f hf => by simp at hf⟩
      | fragment d pid i =>
          obtain ⟨e, fp, f, he, -, hl, hf, hpop', -⟩ := hinv.pop_fragment hq
          rw [hpop'] at hpop
          cases hpop
          have hout := (hinv.wf.endpoint_wf he).outgoing
          refine ⟨h.link hQ hinv.wf he hout (fun _ _ hl => hl) hl, fun f' hf' => ?_⟩
          simp only [Option.some.injEq, NetMessage.fragment.injEq] at hf'
          rw [← hf']
          exact hQ f false (h d e he pid fp hl f (List.mem_of_getElem? hf))

/-- **One call** keeps what holds of the stored fragments, if it holds of those it cuts. -/
theorem step (h : nm.EveryOutgoing Q) (hQ : LinkBlind Q) (hinv : nm.OutqueueInv) {op : NmOp}
    {nm' : NetworkManager} {a : NmAnswer} (hs : networkManagerStep nm op = .ok (nm', a))
    (hcut : ∀ src dst data tSweep tCreate, op = .enqueuePacket src dst data tSweep tCreate →
      0 < data.length → ∀ f ∈ (nm.endpointFor dst).cut src data, Q f) :
    nm'.EveryOutgoing Q ∧ ∀ f, a = .message (some (.fragment f)) → Q f := by
  cases op with
  | enqueuePacket src dst data tSweep tCreate =>
      rcases networkManagerStep_enqueuePacket hinv.wf hs with
        ⟨-, rfl, rfl⟩ | ⟨hdata, -, hfree, rfl, rfl⟩
      · exact ⟨h, by simp⟩
      · exact ⟨h.enqueued hinv.wf hfree (hcut _ _ _ _ _ rfl hdata), by simp⟩
  | popMsg =>
      simp only [networkManagerStep, Eval.bind_eq_ok] at hs
      obtain ⟨⟨nm₁, m⟩, hpop, he⟩ := hs
      obtain ⟨rfl, rfl⟩ : nm₁ = nm' ∧ NmAnswer.message m = a := by simpa using he
      obtain ⟨hkeep, hm⟩ := h.popMsg hQ hinv hpop
      exact ⟨hkeep, fun f hf => hm f (by simpa using hf)⟩
  | enqueueFragment dst pid fid tSweep =>
      cases hs
      exact ⟨h.enqueueFragment hQ hinv dst pid fid tSweep, by simp⟩
  | addFragment f tSweep tCreate =>
      rw [networkManagerStep, hinv.addFragment] at hs
      cases hs
      exact ⟨h.arrived hinv.wf f tSweep tCreate, by simp⟩
  | popPacket src pid size tSweep =>
      rw [networkManagerStep, hinv.popPacket] at hs
      cases hs
      exact ⟨h.popped hinv.wf src pid tSweep, by simp⟩

end NetworkManager.EveryOutgoing

end PeerStreamer
