import PeerStreamer.NetHelper.Endpoints

/-!
# Who owns what is on the outgoing queue

The fragments on the outgoing queue are linked into it through a list head they embed, and stay
owned by the outgoing bucket of the endpoint they are sent to.  `Endpoint.Owns e q` is the
bookkeeping this needs, seen from one endpoint: its packets name their slots, a slot is on `q` as
many times as its link is non-NULL — once or never — and whatever `q` holds for the node is one of
these slots.

The lemmas say what the three things that happen to an outgoing bucket do to it: the sweep
(`Owns.sweep`), a new packet (`Owns.insert`), and linking or unlinking one slot (`Owns.relink`).
In each case the elements of the queue that belong to other nodes are left alone.
-/

namespace PeerStreamer

/-! ## Destroying a packet filters the queue -/

/-- The elements of the queue that the packets `dead` of a bucket own. -/
def PacketBucket.owned (pb : PacketBucket) (dead : List ℕ) : MsgList :=
  dead.flatMap fun pid => (pb.lookup pid).elim [] fun fp => fp.frags.map fragmentListElement

lemma fragmentDeinit_eq_filter {f : Fragment} {q : MsgList}
    (h : q.count (fragmentListElement f) ≤ f.linked.toNat) :
    fragmentDeinit f q = q.filter (· ≠ fragmentListElement f) := by
  rw [fragmentDeinit]
  cases hl : f.linked with
  | true =>
      rw [hl, Bool.toNat_true] at h
      exact erase_eq_filter_of_count_le_one h
  | false =>
      rw [hl, Bool.toNat_false, Nat.le_zero, List.count_eq_zero] at h
      refine (List.filter_eq_self.mpr fun x hx => ?_).symm
      simpa using fun he : x = fragmentListElement f => h (he ▸ hx)

/-- Destroying fragments that are on the queue at most as often as they are linked filters them
out. -/
lemma foldl_fragmentDeinit_eq_filter {fs : List Fragment} {q : MsgList}
    (h : ∀ f ∈ fs, q.count (fragmentListElement f) ≤ f.linked.toNat) :
    fs.foldl (fun q f => fragmentDeinit f q) q
      = q.filter (· ∉ fs.map fragmentListElement) := by
  induction fs generalizing q with
  | nil => simp
  | cons f fs ih =>
      have hf := h f List.mem_cons_self
      have hfs : ∀ g ∈ fs, (q.filter (· ≠ fragmentListElement f)).count (fragmentListElement g)
          ≤ g.linked.toNat := fun g hg =>
        (List.filter_sublist.count_le _).trans (h g (List.mem_cons_of_mem f hg))
      rw [List.foldl_cons, fragmentDeinit_eq_filter hf, ih hfs, List.filter_filter]
      refine List.filter_congr fun x _ => ?_
      simp only [List.map_cons, List.mem_cons, not_or, Bool.decide_and, Bool.and_comm, ne_eq]

lemma fragmentedPacketDestroy_eq_filter {fp : FragmentedPacket} {q : MsgList}
    (h : ∀ f ∈ fp.frags, q.count (fragmentListElement f) ≤ f.linked.toNat) :
    fragmentedPacketDestroy fp q = q.filter (· ∉ fp.frags.map fragmentListElement) :=
  foldl_fragmentDeinit_eq_filter h

/-- A packet none of whose slots is linked leaves the queue alone. -/
lemma fragmentedPacketDestroy_unlinked {fp : FragmentedPacket} {q : MsgList}
    (h : ∀ f ∈ fp.frags, f.linked = false) : fragmentedPacketDestroy fp q = q := by
  rw [fragmentedPacketDestroy]
  generalize fp.frags = fs at h
  induction fs with
  | nil => rfl
  | cons f fs ih =>
      have hf : fragmentDeinit f q = q := by
        rw [fragmentDeinit, h f List.mem_cons_self]
        exact if_neg Bool.false_ne_true
      rw [List.foldl_cons, hf]
      exact ih fun g hg => h g (List.mem_cons_of_mem f hg)

namespace PacketBucket

variable {pb : PacketBucket} {q : MsgList}

lemma unlink_eq_filter {dead : List ℕ}
    (h : ∀ pid fp, pb.lookup pid = some fp →
      ∀ f ∈ fp.frags, q.count (fragmentListElement f) ≤ f.linked.toNat) :
    pb.unlink dead q = q.filter (· ∉ pb.owned dead) := by
  induction dead generalizing q with
  | nil => simp [unlink, owned]
  | cons pid dead ih =>
      have hstep : pb.unlink (pid :: dead) q
          = pb.unlink dead ((pb.lookup pid).elim q (fragmentedPacketDestroy · q)) := rfl
      have howned : pb.owned (pid :: dead)
          = (pb.lookup pid).elim [] (fun fp => fp.frags.map fragmentListElement)
            ++ pb.owned dead := List.flatMap_cons
      cases hl : pb.lookup pid with
      | none =>
          rw [hstep, howned, hl]
          exact ih h
      | some fp =>
          have hd : fragmentedPacketDestroy fp q
              = q.filter (· ∉ fp.frags.map fragmentListElement) :=
            fragmentedPacketDestroy_eq_filter (h pid fp hl)
          rw [hstep, howned, hl]
          simp only [Option.elim]
          rw [hd, ih fun p fp' hp f hf => (List.filter_sublist.count_le _).trans (h p fp' hp f hf),
            List.filter_filter]
          refine List.filter_congr fun x _ => ?_
          simp only [List.mem_append, not_or, Bool.decide_and, Bool.and_comm]

lemma unlink_unlinked {dead : List ℕ}
    (h : ∀ pid fp, pb.lookup pid = some fp → ∀ f ∈ fp.frags, f.linked = false) :
    pb.unlink dead q = q := by
  induction dead with
  | nil => rfl
  | cons pid dead ih =>
      have hstep : pb.unlink (pid :: dead) q
          = pb.unlink dead ((pb.lookup pid).elim q (fragmentedPacketDestroy · q)) := rfl
      cases hl : pb.lookup pid with
      | none => rw [hstep, hl]; exact ih
      | some fp =>
          rw [hstep, hl]
          simp only [Option.elim]
          rw [fragmentedPacketDestroy_unlinked (h pid fp hl)]
          exact ih

end PacketBucket

/-! ## What an endpoint owns -/

/-- The slots of a packet stored under `pid` name their destination, packet and position. -/
def FragmentedPacket.Named (fp : FragmentedPacket) (node : NodeID) (pid : ℕ) : Prop :=
  ∀ i (f : Fragment), fp.frags[i]? = some f → f.toNode = node ∧ f.pid = pid ∧ f.id = i

/-- No slot of a packet is linked into a list. -/
def FragmentedPacket.Unlinked (fp : FragmentedPacket) : Prop := ∀ f ∈ fp.frags, f.linked = false

/-- The endpoint accounts for everything the queue `q` holds for its node. -/
structure Endpoint.Owns (e : Endpoint) (q : MsgList) : Prop where
  named : ∀ pid fp, e.outgoing.lookup pid = some fp → fp.Named e.node pid
  linked : ∀ pid fp, e.outgoing.lookup pid = some fp → ∀ i f, fp.frags[i]? = some f →
    q.count (.fragment e.node pid i) = f.linked.toNat
  stored : ∀ dst pid i, QueueElem.fragment dst pid i ∈ q → nodeidEqual e.node dst →
    dst = e.node ∧ ∃ fp, e.outgoing.lookup pid = some fp ∧ i < fp.frags.length
  unlinked : ∀ pid fp, e.incoming.lookup pid = some fp → fp.Unlinked

/-- An endpoint whose outgoing bucket has been swept. -/
def Endpoint.refreshed (e : Endpoint) (t : ℤ) : Endpoint :=
  { e with outgoing := e.outgoing.fresh t }

/-- Two queues agree on everything that is not for `node`. -/
def SameElsewhere (node : NodeID) (q q' : MsgList) : Prop :=
  ∀ dst pid i, nodeidEqual node dst = false →
    q'.count (.fragment dst pid i) = q.count (.fragment dst pid i)

namespace FragmentedPacket

variable {fp : FragmentedPacket} {node : NodeID} {pid : ℕ}

lemma Named.element (h : fp.Named node pid) {i : ℕ} {f : Fragment} (hf : fp.frags[i]? = some f) :
    fragmentListElement f = .fragment node pid i := by
  obtain ⟨hn, hp, hi⟩ := h i f hf
  rw [fragmentListElement, hn, hp, hi]

/-- The elements a named packet owns are one for each of its slots. -/
lemma Named.mem_elements (h : fp.Named node pid) {el : QueueElem} :
    el ∈ fp.frags.map fragmentListElement ↔ ∃ i < fp.frags.length, el = .fragment node pid i := by
  rw [List.mem_map]
  constructor
  · rintro ⟨f, hf, rfl⟩
    obtain ⟨i, hi, rfl⟩ := List.getElem_of_mem hf
    exact ⟨i, hi, h.element (List.getElem?_eq_getElem hi)⟩
  · rintro ⟨i, hi, rfl⟩
    exact ⟨fp.frags[i], List.getElem_mem hi, h.element (List.getElem?_eq_getElem hi)⟩

/-- The elements of a named packet, each once. -/
lemma Named.count_elements (h : fp.Named node pid) (dst : NodeID) (p i : ℕ) :
    (fp.frags.map fragmentListElement).count (.fragment dst p i)
      = if dst = node ∧ p = pid ∧ i < fp.frags.length then 1 else 0 := by
  have hmap : fp.frags.map fragmentListElement
      = (List.range fp.frags.length).map (QueueElem.fragment node pid) := by
    refine List.ext_getElem (by simp) fun j hj _ => ?_
    rw [List.length_map] at hj
    rw [List.getElem_map, List.getElem_map, List.getElem_range,
      h.element (List.getElem?_eq_getElem hj)]
  have hnd : ((List.range fp.frags.length).map (QueueElem.fragment node pid)).Nodup :=
    List.nodup_range.map fun a b hab => by injection hab
  rw [hmap, List.Nodup.count hnd]
  refine if_congr ?_ rfl rfl
  simp only [List.mem_map, List.mem_range]
  constructor
  · rintro ⟨j, hj, he⟩
    cases he
    exact ⟨rfl, rfl, hj⟩
  · rintro ⟨rfl, rfl, hi⟩
    exact ⟨i, hi, rfl⟩

@[simp] lemma relink_packetId (id : ℕ) (b : Bool) : (fp.relink id b).packetId = fp.packetId := rfl

@[simp] lemma relink_length (id : ℕ) (b : Bool) :
    (fp.relink id b).frags.length = fp.frags.length := by
  simp [relink]

lemma relink_getElem? {id i : ℕ} {b : Bool} {f : Fragment} :
    (fp.relink id b).frags[i]? = some f
      ↔ ∃ f₀, fp.frags[i]? = some f₀ ∧ (if i = id then { f₀ with linked := b } else f₀) = f := by
  rw [relink, List.getElem?_modify, Option.map_eq_map, Option.map_eq_some_iff]
  refine exists_congr fun f₀ => and_congr_right fun _ => ?_
  by_cases hi : i = id
  · rw [if_pos hi, if_pos hi.symm]
  · rw [if_neg hi, if_neg (Ne.symm hi)]

end FragmentedPacket

namespace Endpoint.Owns

variable {e : Endpoint} {q : MsgList}

/-- A fresh endpoint owns nothing, so it suits every queue with nothing for its node. -/
lemma create {node : NodeID} (fragSize maxPktAge : ℕ)
    (h : ∀ dst pid i, QueueElem.fragment dst pid i ∈ q → nodeidEqual node dst = false) :
    (endpointCreate node fragSize maxPktAge).Owns q where
  named pid fp hl := by simp [endpointCreate] at hl
  linked pid fp hl := by simp [endpointCreate] at hl
  stored dst pid i hm hn := absurd (h dst pid i hm) (by simpa [endpointCreate] using hn)
  unlinked pid fp hl := by simp [endpointCreate] at hl

/-- Ownership looks at the elements for the node only. -/
lemma congr {q' : MsgList} (h : e.Owns q)
    (hc : ∀ dst pid i, nodeidEqual e.node dst →
      q'.count (.fragment dst pid i) = q.count (.fragment dst pid i)) : e.Owns q' where
  named := h.named
  linked pid fp hl i f hf := by
    rw [hc e.node pid i (nodeidEqual_self _)]
    exact h.linked pid fp hl i f hf
  stored dst pid i hm hn := by
    refine h.stored dst pid i ?_ hn
    rw [← List.count_pos_iff] at hm ⊢
    rwa [← hc dst pid i hn]
  unlinked := h.unlinked

/-- Each slot is on the queue at most as often as its link says. -/
lemma count_le (h : e.Owns q) (pid : ℕ) (fp : FragmentedPacket)
    (hl : e.outgoing.lookup pid = some fp) (f : Fragment) (hf : f ∈ fp.frags) :
    q.count (fragmentListElement f) ≤ f.linked.toNat := by
  obtain ⟨i, hi, rfl⟩ := List.getElem_of_mem hf
  have hget : fp.frags[i]? = some fp.frags[i] := List.getElem?_eq_getElem hi
  rw [(h.named pid fp hl).element hget]
  exact (h.linked pid fp hl i _ hget).le

/-- The elements owned by the packets `dead`. -/
lemma mem_owned (h : e.Owns q) {dead : List ℕ} {el : QueueElem} :
    el ∈ e.outgoing.owned dead ↔ ∃ pid ∈ dead, ∃ fp, e.outgoing.lookup pid = some fp
      ∧ ∃ i < fp.frags.length, el = .fragment e.node pid i := by
  simp only [PacketBucket.owned, List.mem_flatMap]
  refine exists_congr fun pid => and_congr_right fun _ => ?_
  cases hl : e.outgoing.lookup pid with
  | none => simp
  | some fp => simp [(h.named pid fp hl).mem_elements]

lemma mem_owned_fragment (h : e.Owns q) {dead : List ℕ} {dst : NodeID} {pid i : ℕ}
    (hm : QueueElem.fragment dst pid i ∈ e.outgoing.owned dead) : dst = e.node ∧ pid ∈ dead := by
  obtain ⟨p, hp, fp, -, j, -, he⟩ := h.mem_owned.mp hm
  cases he
  exact ⟨rfl, hp⟩

/-! ### The sweep -/

/-- The queue after a sweep: without the elements of the packets it drops. -/
lemma sweptQueue_eq (h : e.Owns q) (t : ℤ) :
    e.sweptQueue t q = q.filter (· ∉ e.outgoing.owned (e.outgoing.swept t)) :=
  PacketBucket.unlink_eq_filter h.count_le

/-- A sweep leaves the elements of other nodes alone, and those of other packets. -/
lemma count_sweptQueue (h : e.Owns q) (t : ℤ) {dst : NodeID} {pid i : ℕ}
    (hkeep : dst = e.node → pid ∉ e.outgoing.swept t) :
    (e.sweptQueue t q).count (.fragment dst pid i) = q.count (.fragment dst pid i) := by
  rw [h.sweptQueue_eq]
  refine List.count_filter (decide_eq_true fun hm => ?_)
  obtain ⟨hd, hp⟩ := h.mem_owned_fragment hm
  exact hkeep hd hp

lemma sweptQueue_elsewhere (h : e.Owns q) (t : ℤ) : SameElsewhere e.node q (e.sweptQueue t q) :=
  fun dst pid i hd => h.count_sweptQueue t fun he => by
    rw [he, nodeidEqual_self] at hd
    exact absurd hd (by decide)

/-- **The sweep keeps the books.** -/
theorem sweep (h : e.Owns q) (hwf : e.outgoing.Wf) (t : ℤ) :
    (e.refreshed t).Owns (e.sweptQueue t q) where
  named pid fp hl := h.named pid fp (hwf.lookup_of_fresh hl)
  linked pid fp hl i f hf := by
    have hkeep : pid ∉ e.outgoing.swept t := fun hp => by
      have hnone := hwf.lookup_without pid (e.outgoing.swept t)
      rw [if_pos hp] at hnone
      exact absurd (hnone.symm.trans hl) (by simp)
    rw [show (e.refreshed t).node = e.node from rfl, h.count_sweptQueue t fun _ => hkeep]
    exact h.linked pid fp (hwf.lookup_of_fresh hl) i f hf
  stored dst pid i hm hn := by
    rw [h.sweptQueue_eq, List.mem_filter, decide_eq_true_iff] at hm
    obtain ⟨hd, fp, hl, hi⟩ := h.stored dst pid i hm.1 hn
    refine ⟨hd, fp, ?_, hi⟩
    -- had the packet been dropped, its element would have gone with it
    have hkeep : pid ∉ e.outgoing.swept t := fun hp =>
      hm.2 (h.mem_owned.mpr ⟨pid, hp, fp, hl, i, hi, by rw [hd]⟩)
    rw [← hl]
    exact (hwf.lookup_without _ _).trans (if_neg hkeep)
  unlinked := h.unlinked

/-! ### A new packet -/

/-- A packet stored under a free id, with all its slots put on the queue. -/
theorem insert (h : e.Owns q) (hwf : e.outgoing.Wf) (fp : FragmentedPacket) {front : MsgList}
    (hfree : e.outgoing.lookup fp.packetId = none) (hnamed : fp.Named e.node fp.packetId)
    (hlinked : ∀ f ∈ fp.frags, f.linked = true) (hfront : front = fp.frags.map fragmentListElement)
    (outId : ℕ) :
    Endpoint.Owns { e with outgoing := e.outgoing.insert fp, outId } (front ++ q) where
  named pid fp' hl := by
    rw [hwf.lookup_insert hfree] at hl
    split_ifs at hl with hp
    · obtain rfl := Option.some.inj hl
      exact hp ▸ hnamed
    · exact h.named pid fp' hl
  linked pid fp' hl i f hf := by
    rw [hwf.lookup_insert hfree] at hl
    rw [List.count_append, hfront, hnamed.count_elements]
    split_ifs at hl with hp
    · obtain rfl := Option.some.inj hl
      have hi := (List.getElem?_eq_some_iff.mp hf).1
      have hnone : q.count (.fragment e.node pid i) = 0 := by
        refine List.count_eq_zero.mpr fun hm => ?_
        obtain ⟨-, fp', hl', -⟩ := h.stored _ _ _ hm (nodeidEqual_self _)
        rw [← hp, hfree] at hl'
        cases hl'
      rw [hnone, if_pos ⟨rfl, hp.symm, hi⟩, hlinked f (List.mem_of_getElem? hf)]
      rfl
    · rw [if_neg fun hc => hp hc.2.1.symm, Nat.zero_add]
      exact h.linked pid fp' hl i f hf
  stored dst pid i hm hn := by
    rw [List.mem_append, hfront, hnamed.mem_elements] at hm
    rcases hm with ⟨j, hj, he⟩ | hm
    · cases he
      exact ⟨rfl, fp, by rw [hwf.lookup_insert hfree, if_pos rfl], hj⟩
    · obtain ⟨hd, fp', hl, hi⟩ := h.stored dst pid i hm hn
      refine ⟨hd, fp', ?_, hi⟩
      rw [hwf.lookup_insert hfree, if_neg, hl]
      rintro rfl
      rw [hfree] at hl
      cases hl
  unlinked := h.unlinked

/-- The fragments a packet is cut into name their slots. -/
lemma cut_named (e : Endpoint) (src : NodeID) (data : Bytes) (t : ℤ) :
    FragmentedPacket.Named ⟨e.outId, t, e.cut src data⟩ e.node e.outId := by
  intro i f hf
  simp only [Endpoint.cut, cutFragments, List.getElem?_map, Option.map_eq_some_iff] at hf
  obtain ⟨j, hj, rfl⟩ := hf
  obtain ⟨hlt, rfl⟩ := List.getElem?_eq_some_iff.mp hj
  exact ⟨rfl, rfl, by simp [fragmentInit]⟩

lemma cut_linked (e : Endpoint) (src : NodeID) (data : Bytes) :
    ∀ f ∈ e.cut src data, f.linked = true := by
  intro f hf
  obtain ⟨i, -, rfl⟩ := List.mem_map.mp hf
  rfl

/-- **Enqueueing a packet keeps the books**, when its id is free after the sweep. -/
theorem enqueued (h : e.Owns q) (hwf : e.outgoing.Wf) {src : NodeID} {data : Bytes}
    {tSweep tCreate : ℤ} (hfree : (e.outgoing.fresh tSweep).lookup e.outId = none) :
    (e.enqueued src data tSweep tCreate).Owns
      ((e.cut src data).map fragmentListElement ++ e.sweptQueue tSweep q) :=
  (h.sweep hwf tSweep).insert (hwf.fresh tSweep) ⟨e.outId, tCreate, e.cut src data⟩ hfree
    (cut_named e src data tCreate) (cut_linked e src data) rfl ((e.outId + 1) % 2 ^ 16)

/-! ### Linking and unlinking one slot -/

/-- A slot whose link is changed together with its number of occurrences on the queue. -/
theorem relink (h : e.Owns q) (hwf : e.outgoing.Wf) {fp : FragmentedPacket} {pid id : ℕ}
    {b : Bool} (q' : MsgList) (hl : e.outgoing.lookup pid = some fp) (hid : id < fp.frags.length)
    (hcount : q'.count (.fragment e.node pid id) = b.toNat)
    (hother : ∀ dst p i, ¬ (dst = e.node ∧ p = pid ∧ i = id) →
      q'.count (.fragment dst p i) = q.count (.fragment dst p i)) :
    Endpoint.Owns { e with outgoing := e.outgoing.store (fp.relink id b) } q' := by
  have hpid : fp.packetId = pid := hwf.packetId_of_lookup hl
  have hlook : ∀ p, (e.outgoing.store (fp.relink id b)).lookup p
      = if pid = p then some (fp.relink id b) else e.outgoing.lookup p := fun p => by
    rw [hwf.lookup_store, FragmentedPacket.relink_packetId, hpid]
    split_ifs with hp
    · rw [← hp, hl]
      rfl
    · rfl
  constructor
  · intro p fp' hp i f hf
    rw [hlook] at hp
    split_ifs at hp with he
    · obtain rfl := Option.some.inj hp
      obtain ⟨f₀, hf₀, rfl⟩ := FragmentedPacket.relink_getElem?.mp hf
      have hn := h.named pid fp hl i f₀ hf₀
      rw [← he]
      split_ifs <;> exact hn
    · exact h.named p fp' hp i f hf
  · intro p fp' hp i f hf
    rw [hlook] at hp
    split_ifs at hp with he
    · obtain rfl := Option.some.inj hp
      obtain ⟨f₀, hf₀, rfl⟩ := FragmentedPacket.relink_getElem?.mp hf
      rw [← he]
      split_ifs with hi
      · rw [hi, hcount]
      · rw [hother _ _ _ fun hc => hi hc.2.2]
        exact h.linked pid fp hl i f₀ hf₀
    · rw [hother _ _ _ fun hc => he hc.2.1.symm]
      exact h.linked p fp' hp i f hf
  · intro dst p i hm hn
    by_cases hc : dst = e.node ∧ p = pid ∧ i = id
    · obtain ⟨rfl, rfl, rfl⟩ := hc
      exact ⟨rfl, fp.relink i b, by rw [hlook, if_pos rfl], by simpa using hid⟩
    · rw [← List.count_pos_iff, hother _ _ _ hc, List.count_pos_iff] at hm
      obtain ⟨hd, fp', hl', hi⟩ := h.stored dst p i hm hn
      refine ⟨hd, ?_⟩
      rw [hlook]
      split_ifs with he
      · refine ⟨_, rfl, ?_⟩
        rw [← he, hl] at hl'
        obtain rfl := Option.some.inj hl'
        simpa using hi
      · exact ⟨fp', hl', hi⟩
  · exact h.unlinked

/-- The incoming bucket only has to hold packets that are linked nowhere. -/
lemma incoming (h : e.Owns q) {incoming : PacketBucket}
    (hu : ∀ pid fp, incoming.lookup pid = some fp → fp.Unlinked) :
    Endpoint.Owns { e with incoming } q :=
  ⟨h.named, h.linked, h.stored, hu⟩

end Endpoint.Owns

end PeerStreamer
