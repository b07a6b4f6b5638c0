import PeerStreamer.Streaming.Provenance
import PeerStreamer.Streaming.Reordering

/-!
# What viewers see

In a swarm with one source, every peer writes chunks of the source's stream.  A peer that reorders
writes a subsequence of the stream: in order, none twice, and with the bytes that the source has
read (`viewer_stream`).

The output computes with ids up to the length of its buffer ahead, so the stream has to end that far
below `INT_MAX` (`Swarm.Fits`).
-/

namespace PeerStreamer

variable {B C S ι : Type}

/-! ## The invariant -/

namespace Swarm

/-- What the node `n` has written so far. -/
def writtenBy [DecidableEq ι] (s : Swarm B C S ι) (n : ι) : List Chunk :=
  s.sent.filterMap fun e => if e.1 = n then e.2.chunkWritten else none

/-- No input has given out so many chunks that an output buffer could not hold the next one. -/
def Fits (s : Swarm B C S ι) : Prop := ∀ n, (s.nodes n).input.id + 2 ^ 16 ≤ INT_MAX

/-- The chunk has reached the node `n` from some input. -/
def Has (s : Swarm B C S ι) (n : ι) (c : Chunk) : Prop := ∃ c₀ k, s.Reached c₀ n k c

end Swarm

/-- The chunks that have been read have ids below the next one of their input. -/
structure Numbered (s : Swarm B C S ι) : Prop where
  ids : ∀ n, 0 ≤ (s.nodes n).input.id
  origins : ∀ n c, s.Origin n c →
    0 ≤ c.id ∧ c.id < (s.nodes n).input.id ∧ c.data.length = c.size

/-- A chunk that has reached a node has an id and the bytes of one that was read. -/
lemma Numbered.of_has [ChunkBuffer B] {cfg : ι → InstanceConfig B ι} {s : Swarm B C S ι} {n : ι}
    {c : Chunk} (h : Numbered s) (hg : Genuine cfg s) (hc : s.Has n c) :
    ∃ m c₀, s.Origin m c₀ ∧ c.content = c₀.content ∧ 0 ≤ c.id
      ∧ c.id < (s.nodes m).input.id ∧ c.data.length = c.size := by
  obtain ⟨c₀, k, hc⟩ := hc
  obtain ⟨m, hm⟩ := hc.exists_origin
  obtain ⟨h₀, hlt, hsize⟩ := h.origins m c₀ hm
  rw [hg.eq_of_reached hc]
  exact ⟨m, c₀, hm, rfl, h₀, hlt, hsize⟩

section Viewed

variable [DecidableEq ι]

/-- What the node `n`, whose output is `out`, has written: with reordering, what `output_deliver`
has made of chunks that have reached it; without, such chunks. -/
def Shows (s : Swarm B C S ι) (n : ι) : Option ChunkOutput → Prop
  | none => s.writtenBy n = []
  | some o =>
      if o.reorder then ∃ cs rs, Reordering cs rs o ∧ written rs = s.writtenBy n
        ∧ ∀ c ∈ cs, s.Has n c
      else ∀ w ∈ s.writtenBy n, s.Has n w

/-- What the outputs have written. -/
structure Viewed (cfg : ι → InstanceConfig B ι) (s : Swarm B C S ι) : Prop where
  reorder : ∀ n o, (s.nodes n).ps.chunkOut = some o →
    (o.reorder = true ↔ (cfg n).outbuffReorder ≠ 0)
  shows : ∀ n, Shows s n (s.nodes n).ps.chunkOut

variable {cfg : ι → InstanceConfig B ι} {s s' : Swarm B C S ι} {n m : ι}
  {node : SwarmNode B S ι} {new : Option Chunk} {out : List (PsEffect C ι)} {c : Chunk}

/-! ## What has happened is kept -/

lemma Swarm.Has.advance (h : s.Has n c) : (s.advance m node new out).Has n c := by
  obtain ⟨c₀, k, h⟩ := h
  refine ⟨c₀, k, h.mono (fun _ _ hc => List.mem_append_left _ hc) ?_⟩
  rintro m n d ⟨transId, hc⟩
  exact ⟨transId, List.mem_append_left _ hc⟩

lemma writtenBy_advance : (s.advance m node new out).writtenBy n
    = s.writtenBy n ++ if m = n then out.filterMap PsEffect.chunkWritten else [] := by
  rw [Swarm.writtenBy, Swarm.advance, List.filterMap_append, List.filterMap_map]
  congr 1
  split_ifs with hmn
  · exact List.filterMap_congr fun e _ => if_pos hmn
  · exact List.filterMap_eq_nil_iff.mpr fun e _ => if_neg hmn

/-- As long as a node writes nothing, nothing changes for it. -/
lemma Shows.advance {o : Option ChunkOutput} (h : Shows s n o)
    (hquiet : m = n → out.filterMap PsEffect.chunkWritten = []) :
    Shows (s.advance m node new out) n o := by
  have hsame : (s.advance m node new out).writtenBy n = s.writtenBy n := by
    rw [writtenBy_advance]
    split_ifs with hmn
    · rw [hquiet hmn, List.append_nil]
    · exact List.append_nil _
  cases o with
  | none => exact hsame.trans h
  | some o =>
      rw [Shows] at h ⊢
      rw [hsame]
      split_ifs at h ⊢ with hreorder
      · obtain ⟨cs, rs, hr, hw, hcs⟩ := h
        exact ⟨cs, rs, hr, hw, fun c hc => (hcs c hc).advance⟩
      · exact fun w hw => (h w hw).advance

/-! ## One round -/

/-- A chunk that has reached a node is delivered to its output. -/
lemma Shows.deliver {o o' : ChunkOutput} {res : ℤ} {d : Chunk} (h : Shows s n (some o))
    (hd : (s.advance n node new out).Has n d) (hid : 0 ≤ d.id) (hmax : d.id + 2 ^ 16 ≤ INT_MAX)
    (hsize : d.data.length = d.size)
    (hdel : outputDeliver o d = .ok (o', res, out.filterMap PsEffect.chunkWritten)) :
    Shows (s.advance n node new out) n (some o') ∧ o'.reorder = o.reorder := by
  have hwritten : (s.advance n node new out).writtenBy n = _ := writtenBy_advance
  rw [if_pos rfl] at hwritten
  rw [Shows] at h
  split_ifs at h with hreorder
  · obtain ⟨cs, rs, hr, hw, hcs⟩ := h
    have hshort := hr.inv.short
    obtain ⟨o₁, rep, hstep, hr₁, -⟩ := hr.step hid (by omega) hsize
    rw [deliverStep, hdel] at hstep
    simp only [Eval.ok_bind, Eval.pure_eq_ok, Except.ok.injEq, Prod.mk.injEq] at hstep
    obtain ⟨rfl, rfl⟩ := hstep
    refine ⟨?_, hr₁.reorder.trans hreorder.symm⟩
    rw [Shows, if_pos hr₁.reorder]
    refine ⟨cs ++ [d], _, hr₁, ?_, fun e he => ?_⟩
    · rw [written_append, hw, hwritten]
      simp [written]
    · rcases List.mem_append.mp he with he | he
      · exact (hcs e he).advance
      · rw [List.mem_singleton.mp he]
        exact hd
  · rw [outputDeliver, if_neg hreorder] at hdel
    simp only [Eval.pure_eq_ok, Except.ok.injEq, Prod.mk.injEq] at hdel
    obtain ⟨rfl, -, hout⟩ := hdel
    refine ⟨?_, rfl⟩
    rw [Shows, if_neg hreorder, hwritten, ← hout]
    intro w hw
    rcases List.mem_append.mp hw with hw | hw
    · exact (h w hw).advance
    · rw [List.mem_singleton.mp hw]
      exact hd

lemma swarmCreate_input [PeerSet ι S] (n : ι) :
    ((swarmCreate cfg : Swarm B C S ι).nodes n).input.id = 0 := by
  simp only [swarmCreate, InstanceConfig.create, inputOpen]
  split_ifs
  · rfl
  · rfl

lemma swarmCreate_viewed [PeerSet ι S]
    (hlength : ∀ n, (cfg n).outbuffReorder ≠ 0 →
      1 ≤ (outputCreate (cfg n).outbuffSize (cfg n).outbuffReorder (cfg n).memory).buffLength) :
    Numbered (swarmCreate cfg : Swarm B C S ι)
      ∧ Viewed cfg (swarmCreate cfg : Swarm B C S ι) := by
  have hout : ∀ n, ((swarmCreate cfg : Swarm B C S ι).nodes n).ps.chunkOut = none
      ∨ ((swarmCreate cfg : Swarm B C S ι).nodes n).ps.chunkOut
        = some (outputCreate (cfg n).outbuffSize (cfg n).outbuffReorder (cfg n).memory) := by
    intro n
    simp only [swarmCreate, InstanceConfig.create]
    cases (cfg n).server with
    | none => exact Or.inl rfl
    | some srv => exact Or.inr rfl
  refine ⟨⟨fun n => ?_, fun n c hc => absurd hc List.not_mem_nil⟩, fun n o ho => ?_, fun n => ?_⟩
  · rw [swarmCreate_input]
  · rcases hout n with hn | hn
    · rw [hn] at ho
      cases ho
    · rw [hn] at ho
      cases ho
      simp [outputCreate]
  · rcases hout n with hn | hn
    · rw [hn]
      rfl
    · rw [hn, Shows]
      split_ifs with hreorder
      · exact ⟨[], [], ⟨outputCreate_ringInv (hlength n (by simpa [outputCreate] using hreorder)),
          hreorder, by simp, by simp [inTime], Or.inl ⟨rfl, rfl, rfl⟩⟩, rfl, by simp⟩
      · exact fun w hw => absurd hw List.not_mem_nil

variable [ChunkBuffer B] [ChunkIDSet C] {clk : ι → Clock} {r : SwarmRound C ι} {src : ι}

/-- The chunk that is read gets the next id of the input. -/
lemma Advance.read (h : Advance s r node new out) (hchunkised : r.chunkised.Documented) :
    (s.nodes r.node).input.id ≤ node.input.id ∧ node.input.id ≤ (s.nodes r.node).input.id + 1
      ∧ ∀ d, new = some d → (s.nodes r.node).ps.isSource = true
        ∧ d.id = (s.nodes r.node).input.id ∧ d.id < node.input.id
        ∧ d.data.length = d.size := by
  rcases h.input with ⟨hinput, rfl⟩ | ⟨hrole, interval, hgiven⟩
  · rw [hinput]
    exact ⟨le_rfl, by omega, by simp⟩
  · have hid := hgiven.id
    refine ⟨by split_ifs at hid <;> omega, by split_ifs at hid <;> omega, ?_⟩
    rintro d rfl
    have hdata : some d.data = r.chunkised.data := hgiven.data
    have hres : 0 < r.chunkised.res := hchunkised.chunk.mpr (by rw [← hdata]; rfl)
    obtain ⟨hd, hsize, -⟩ := hgiven.chunk d rfl
    rw [if_pos hres] at hid
    exact ⟨hrole, hd, by omega, (hchunkised.size d.data hdata.symm).trans hsize.symm⟩

/-- The next id of an input never goes down, and goes up by one at most. -/
lemma Advance.input_id (h : Advance s r node new out) (hchunkised : r.chunkised.Documented)
    (n : ι) : (s.nodes n).input.id ≤ ((s.advance r.node node new out).nodes n).input.id
      ∧ ((s.advance r.node node new out).nodes n).input.id ≤ (s.nodes n).input.id + 1 := by
  obtain ⟨hle, hnext, -⟩ := h.read hchunkised
  by_cases hn : n = r.node
  · rw [hn, advance_self]
    exact ⟨hle, hnext⟩
  · rw [advance_of_ne hn]
    omega

lemma Numbered.step (h : Numbered s) (hchunkised : r.chunkised.Documented)
    (hadv : Advance s r node new out) : Numbered (s.advance r.node node new out) := by
  have hinput := hadv.input_id hchunkised
  refine ⟨fun n => (h.ids n).trans (hinput n).1, fun n c hc => ?_⟩
  · rcases List.mem_append.mp hc with hc | hc
    · obtain ⟨h₀, hlt, hsize⟩ := h.origins n c hc
      exact ⟨h₀, hlt.trans_le (hinput n).1, hsize⟩
    · obtain ⟨d, hd, hpair⟩ := List.mem_map.mp hc
      cases hpair
      obtain ⟨-, hd, hlt, hsize⟩ := (hadv.read hchunkised).2.2 c (Option.mem_toList.mp hd)
      rw [advance_self]
      exact ⟨hd ▸ h.ids r.node, hlt, hsize⟩

/-- If there is one source, the ids of the chunks it reads increase. -/
lemma increasing_step (h : (s.injected.map fun p => p.2.id).Pairwise (· < ·))
    (hnum : Numbered s) (hg : Genuine cfg s)
    (hsource : ∀ n, (cfg n).server = none → n = src) (hchunkised : r.chunkised.Documented)
    (hadv : Advance s r node new out) :
    ((s.advance r.node node new out).injected.map fun p => p.2.id).Pairwise (· < ·) := by
  rw [Swarm.advance, List.map_append, List.pairwise_append]
  refine ⟨h, ?_, fun i hi j hj => ?_⟩
  · cases new with
    | none => exact List.Pairwise.nil
    | some d => exact List.pairwise_singleton _ _
  · obtain ⟨⟨n, c⟩, hc, rfl⟩ := List.mem_map.mp hi
    obtain ⟨p, hp, rfl⟩ := List.mem_map.mp hj
    obtain ⟨d, hd, rfl⟩ := List.mem_map.mp hp
    obtain ⟨hrole, hd, -⟩ := (hadv.read hchunkised).2.2 d (Option.mem_toList.mp hd)
    rw [hg.roles] at hrole
    have hn : n = r.node := by
      rw [hsource n (hg.origins n c hc).1, hsource r.node (Option.isNone_iff_eq_none.mp hrole)]
    have hlt := (hnum.origins n c hc).2.1
    rw [hn] at hlt
    simp only
    omega

/-- **One round**, as long as the ids fit. -/
lemma Viewed.step (h : Viewed cfg s) (hg : Genuine cfg (s.advance r.node node new out))
    (hnum : Numbered (s.advance r.node node new out)) (hfits : (s.advance r.node node new out).Fits)
    (hadv : Advance s r node new out) : Viewed cfg (s.advance r.node node new out) := by
  -- the other nodes, and this one if it writes nothing
  have hquiet : ∀ n, (r.node = n → out.filterMap PsEffect.chunkWritten = []
      ∧ node.ps.chunkOut = (s.nodes n).ps.chunkOut) →
      ((s.advance r.node node new out).nodes n).ps.chunkOut = (s.nodes n).ps.chunkOut
        ∧ Shows (s.advance r.node node new out) n (s.nodes n).ps.chunkOut := by
    intro n hn
    refine ⟨?_, (h.shows n).advance fun he => (hn he).1⟩
    by_cases he : n = r.node
    · subst he
      rw [advance_self, (hn rfl).2]
    · rw [advance_of_ne he]
  have hkept : ∀ n, (∀ o, ((s.advance r.node node new out).nodes n).ps.chunkOut = some o →
      (o.reorder = true ↔ (cfg n).outbuffReorder ≠ 0))
      ∧ Shows (s.advance r.node node new out) n
        ((s.advance r.node node new out).nodes n).ps.chunkOut := by
    intro n
    rcases hadv.flow.output with ⟨hout, hnone⟩ | ⟨d, o, o', res, -, hd, ho, ho', hdel⟩
    · obtain ⟨hsame, hshows⟩ := hquiet n fun hn => ⟨hnone, by rw [← hn, hout]⟩
      rw [hsame]
      exact ⟨h.reorder n, hshows⟩
    · by_cases hn : n = r.node
      · subst hn
        have hold := h.shows r.node
        have hhas : (s.advance r.node node new out).Has r.node d :=
          hg.relayed.held r.node d (by rw [Swarm.Holds, advance_self]; exact hd)
        obtain ⟨m, c₀, -, -, h₀, hlt, hsize⟩ := hnum.of_has hg hhas
        rw [ho] at hold
        have hroom := hfits m
        obtain ⟨hshows, hreorder⟩ := hold.deliver hhas h₀ (by omega) hsize hdel
        rw [advance_self, ho']
        refine ⟨fun o₁ ho₁ => ?_, hshows⟩
        rw [← Option.some.inj ho₁, hreorder]
        exact h.reorder r.node o ho
      · obtain ⟨hsame, hshows⟩ := hquiet n fun he => absurd he.symm hn
        rw [hsame]
        exact ⟨h.reorder n, hshows⟩
  exact ⟨fun n => (hkept n).1, fun n => (hkept n).2⟩

/-! ## Whole runs -/

variable [PeerSet ι S] [LawfulChunkBuffer B] [StoringChunkBuffer B]
  {rounds : List (SwarmRound C ι)} {outs : List (List (PsEffect C ι))}

/-- Short runs fit. -/
lemma fits_of_length (hchunkised : ∀ r ∈ rounds, r.chunkised.Documented)
    (hlen : (rounds.length : ℤ) + 2 ^ 16 ≤ INT_MAX)
    (h : exec (swarmStep clk) (swarmCreate cfg : Swarm B C S ι) rounds = .ok (s, outs)) :
    s.Fits := by
  have hids : ∀ n, (s.nodes n).input.id ≤ rounds.length := by
    refine exec_history (J := fun rs _ s => (∀ r ∈ rs, r.chunkised.Documented) →
      ∀ n, (s.nodes n).input.id ≤ (rs.length : ℤ)) h (fun _ n => ?_) ?_ hchunkised
    · rw [swarmCreate_input]
      exact le_rfl
    · intro rs _ s r out s' hJ hstep hdoc n
      obtain ⟨node, new, rfl, hadv⟩ := swarmStep_advance hstep
      have hle := (hadv.input_id (hdoc r (by simp)) n).2
      have hold := hJ (fun r hr => hdoc r (List.mem_append_left _ hr)) n
      rw [List.length_append, List.length_singleton]
      push_cast
      omega
  intro n
  have hn := hids n
  omega

/-- What holds after any rounds. -/
lemma viewed_of_run (hsource : ∀ n, (cfg n).server = none → n = src)
    (hempty : ∀ n, ChunkBuffer.getChunks (cfg n).cb = [])
    (hlength : ∀ n, (cfg n).outbuffReorder ≠ 0 →
      1 ≤ (outputCreate (cfg n).outbuffSize (cfg n).outbuffReorder (cfg n).memory).buffLength)
    (hchunkised : ∀ r ∈ rounds, r.chunkised.Documented)
    (h : exec (swarmStep clk) (swarmCreate cfg : Swarm B C S ι) rounds = .ok (s, outs))
    (hfits : s.Fits) :
    Genuine cfg s ∧ Numbered s ∧ Viewed cfg s
      ∧ (s.injected.map fun p => p.2.id).Pairwise (· < ·) := by
  obtain ⟨hnum, hview⟩ := swarmCreate_viewed (S := S) (C := C) hlength
  -- the ids only go up, so that they have fitted all the time
  refine exec_history (J := fun rs _ s => (∀ r ∈ rs, r.chunkised.Documented) → s.Fits →
    Genuine cfg s ∧ Numbered s ∧ Viewed cfg s
      ∧ (s.injected.map fun p => p.2.id).Pairwise (· < ·)) h
    (fun _ _ => ⟨swarmCreate_genuine hempty, hnum, hview, List.Pairwise.nil⟩) ?_ hchunkised hfits
  intro rs _ s r out s' hJ hstep hdoc hfits
  have hr := hdoc r (by simp)
  obtain ⟨node, new, rfl, hadv⟩ := swarmStep_advance hstep
  have hfits₀ : s.Fits := fun n => by
    have hle := (hadv.input_id hr n).1
    have hroom := hfits n
    omega
  obtain ⟨hg, hnum, hview, hinc⟩ := hJ (fun r hr => hdoc r (List.mem_append_left _ hr)) hfits₀
  have hg' := hg.step hstep
  have hnum' := hnum.step hr hadv
  exact ⟨hg', hnum', hview.step hg' hnum' hfits hadv,
    increasing_step hinc hnum hg hsource hr hadv⟩

/-- **What a viewer sees** of a swarm with one source: every chunk a peer writes has the id and the
bytes of one that the source has read, and a peer that reorders writes them in the order in which
they were read, none twice. -/
theorem viewer_stream (hsource : ∀ n, (cfg n).server = none → n = src)
    (hempty : ∀ n, ChunkBuffer.getChunks (cfg n).cb = [])
    (hlength : ∀ n, (cfg n).outbuffReorder ≠ 0 →
      1 ≤ (outputCreate (cfg n).outbuffSize (cfg n).outbuffReorder (cfg n).memory).buffLength)
    (hchunkised : ∀ r ∈ rounds, r.chunkised.Documented)
    (h : exec (swarmStep clk) (swarmCreate cfg : Swarm B C S ι) rounds = .ok (s, outs))
    (hfits : s.Fits) (n : ι) :
    (∀ w ∈ s.writtenBy n, ∃ c₀, s.Origin src c₀ ∧ w.content = c₀.content)
      ∧ ((cfg n).outbuffReorder ≠ 0 → ((s.writtenBy n).map Chunk.content).Sublist
        (s.injected.map fun p => p.2.content)) := by
  obtain ⟨hg, hnum, hview, hinc⟩ := viewed_of_run hsource hempty hlength hchunkised h hfits
  have horigin : ∀ w : Chunk, (∃ c, s.Has n c ∧ w.content = c.content) →
      ∃ c₀, s.Origin src c₀ ∧ w.content = c₀.content := by
    rintro w ⟨c, hc, hw⟩
    obtain ⟨m, c₀, hm, hcontent, -⟩ := hnum.of_has hg hc
    rw [hsource m (hg.origins m c₀ hm).1] at hm
    exact ⟨c₀, hm, hw.trans hcontent⟩
  have hshows := hview.shows n
  cases hout : (s.nodes n).ps.chunkOut with
  | none =>
      rw [hout, Shows] at hshows
      rw [hshows]
      exact ⟨fun w hw => absurd hw List.not_mem_nil, fun _ => List.nil_sublist _⟩
  | some o =>
      have hreorder := hview.reorder n o hout
      rw [hout, Shows] at hshows
      split_ifs at hshows with hr
      · obtain ⟨cs, rs, hring, hw, hcs⟩ := hshows
        have hall : ∀ w ∈ s.writtenBy n, ∃ c₀, s.Origin src c₀ ∧ w.content = c₀.content := by
          intro w hwn
          rw [← hw] at hwn
          obtain ⟨c, hfind, hcontent⟩ := hring.reordered.first w hwn
          exact horigin w ⟨c, hcs c (hring.delivered c (List.mem_of_find?_eq_some hfind)), hcontent⟩
        refine ⟨hall, fun _ => sublist_of_increasing Prod.fst ?_ ?_ ?_⟩
        · rw [List.map_map]
          exact hinc
        · rw [List.map_map, ← hw]
          exact hring.reordered.increasing
        · intro x hx
          obtain ⟨w, hw, rfl⟩ := List.mem_map.mp hx
          obtain ⟨c₀, hc₀, hcontent⟩ := hall w hw
          rw [hcontent]
          exact List.mem_map_of_mem hc₀
      · exact ⟨fun w hw => horigin w ⟨w, hshows w hw, rfl⟩,
          fun hne => absurd (hreorder.mpr hne) hr⟩

end Viewed

/-- The node 1 writes the chunk that is pushed to it. -/
theorem viewer_stream_pushed :
    ∃ (s : Swarm ChunkList IDList (PeerList ℕ) ℕ) (outs : List (List (PsEffect IDList ℕ))),
      exec (swarmStep fun _ => .ticking 100) (swarmCreate sourceAndPeers)
        [smallRound 0 100 0 none, smallRound 1 200 1 (some 0)] = .ok (s, outs)
      ∧ (∀ w ∈ s.writtenBy 1, ∃ c₀, s.Origin 0 c₀ ∧ w.content = c₀.content)
      ∧ ((sourceAndPeers 1).outbuffReorder ≠ 0 → ((s.writtenBy 1).map Chunk.content).Sublist
        (s.injected.map fun p => p.2.content)) := by
  obtain ⟨⟨s, outs⟩, h⟩ := Eval.exists_ok (x := exec (swarmStep fun _ => .ticking 100)
    (swarmCreate sourceAndPeers : Swarm ChunkList IDList (PeerList ℕ) ℕ)
    [smallRound 0 100 0 none, smallRound 1 200 1 (some 0)]) (by decide +kernel)
  have hsource : ∀ n, (sourceAndPeers n).server = none → n = 0 := by
    intro n hn
    by_contra hne
    simp [sourceAndPeers, hne] at hn
  have hdoc : ∀ r ∈ [smallRound 0 100 0 none, smallRound 1 200 1 (some 0)],
      r.chunkised.Documented := by
    intro r hr
    have hone : r.chunkised = ⟨1, 1, 1, some [7]⟩ := by
      rcases List.mem_pair.mp hr with rfl | rfl <;> rfl
    rw [hone]
    exact ⟨by simp, by simp⟩
  have hlength : 1 ≤ (outputCreate 10 1 fun _ => ⟨0, 0, 0, 0, [], []⟩).buffLength := by decide
  exact ⟨s, outs, h, viewer_stream hsource (fun _ => rfl) (fun _ _ => hlength) hdoc h
    (fits_of_length hdoc (by decide) h) 1⟩

end PeerStreamer
