import Mathlib.Data.Finset.Max
import Mathlib.Data.Prod.Lex
import OnDemandRouting.Lib.Register
import OnDemandRouting.Model.Wire
import OnDemandRouting.Proofs.EntryFate

/-!
# Frames from one source in any order

Frames from one source `X`, none of them for `X`, arrive at a node while its entry for
`X` does not expire.  The entry is a register that keeps the best rank it is offered, and
the route discovery flag makes an offer a guarded one: the duplicate filter compares
broadcast ids only, and drops a frame with the id of the entry even over fewer hops.  The
fields are C `int`s, and no frame has the `hop_count` `INT_MAX`, which the handler
increments.
-/

namespace OnDemandRouting.Proofs

open OnDemandRouting.Lib
open OnDemandRouting.Model
open OnDemandRouting.Model.Wire (IsInt32)

/-! ## Ranks -/

/-- What `check_r_entry` compares. -/
@[ext] structure Rank where
  broadcastId : Int
  noHops : Int
  deriving DecidableEq

namespace Rank

/-- Higher ids first, then fewer hops. -/
def key (r : Rank) : Int ×ₗ Intᵒᵈ := toLex (r.broadcastId, OrderDual.toDual r.noHops)

theorem key_injective : Function.Injective key := by
  intro r r' h
  have hpair : (r.broadcastId, OrderDual.toDual r.noHops) =
      (r'.broadcastId, OrderDual.toDual r'.noHops) := h
  obtain ⟨hid, hhops⟩ := Prod.mk.inj hpair
  exact Rank.ext hid hhops

instance : LinearOrder Rank := LinearOrder.lift' key key_injective

theorem le_iff {r r' : Rank} : r ≤ r' ↔ r.broadcastId < r'.broadcastId ∨
    r.broadcastId = r'.broadcastId ∧ r'.noHops ≤ r.noHops :=
  Prod.Lex.toLex_le_toLex

theorem broadcastId_le_of_le {r r' : Rank} (h : r ≤ r') : r.broadcastId ≤ r'.broadcastId := by
  rcases le_iff.mp h with hlt | ⟨heq, _⟩
  · exact hlt.le
  · exact heq.le

/-- Both fields are values of a C `int`. -/
structure Fits (r : Rank) : Prop where
  broadcastId : IsInt32 r.broadcastId
  noHops : IsInt32 r.noHops

end Rank

/-- The rank of an entry. -/
def entryRank (e : REntry) : Rank where
  broadcastId := e.broadcastId
  noHops := e.noHops

/-- The rank of the entry a frame gives. -/
def frameRank (f : OdrFrame) : Rank where
  broadcastId := f.broadcastId
  noHops := f.hopCount + 1

theorem acceptsUpdate_iff_rank {f : OdrFrame} {e : REntry} :
    acceptsUpdate f e = true ↔ entryRank e ≤ frameRank f := by
  rw [acceptsUpdate_iff, Rank.le_iff]
  simp only [entryRank, frameRank]
  omega

/-- The rank of the node's entry for `ip`. -/
def rankOf (st : NodeState) (ip : Ip) : Option Rank := (route st.table ip).map entryRank

/-- `b` is the best of the ranks: the highest id and, with that id, the fewest hops. -/
def IsBest (ranks : List Rank) : Option Rank → Prop
  | none => ranks = []
  | some b => b ∈ ranks ∧ ∀ c ∈ ranks, c ≤ b

theorem IsBest.unique {ranks : List Rank} {r r' : Option Rank} (h : IsBest ranks r)
    (h' : IsBest ranks r') : r = r' := by
  cases r with
  | none =>
      obtain rfl : ranks = [] := h
      cases r' with
      | none => rfl
      | some b => exact absurd h'.1 List.not_mem_nil
  | some b =>
      cases r' with
      | none =>
          obtain rfl : ranks = [] := h'
          exact absurd h.1 List.not_mem_nil
      | some b' => rw [le_antisymm (h'.2 b h.1) (h.2 b' h'.1)]

theorem exists_isBest (ranks : List Rank) : ∃ r, IsBest ranks r := by
  by_cases hnil : ranks = []
  · exact ⟨none, hnil⟩
  · obtain ⟨c, hc⟩ := List.exists_mem_of_ne_nil _ hnil
    obtain ⟨b, hb, hmax⟩ := ranks.toFinset.exists_max_image id ⟨c, List.mem_toFinset.mpr hc⟩
    exact ⟨some b, List.mem_toFinset.mp hb, fun c hc => hmax c (List.mem_toFinset.mpr hc)⟩

/-! ## Arrivals -/

/-- A frame, with the interface and the hardware address it comes from. -/
structure Arrival where
  intfN : Int
  addr : Mac
  recvBuf : OdrFrame

/-- The frame as the handler reads it. -/
def Arrival.frame (a : Arrival) : OdrFrame := processRecvdFrame a.recvBuf

/-- The frame is of one of the four types, comes from `ip`, and is for another address.
Its fields are `int`s, and so is `hop_count + 1`. -/
structure Arrival.From (ip : Ip) (a : Arrival) : Prop where
  src : a.frame.srcIp = ip
  dest : a.frame.destIp ≠ ip
  type : ∃ type, FrameType.ofInt a.frame.frameType = some type
  broadcastId : IsInt32 a.frame.broadcastId
  hopCount : IsInt32 a.frame.hopCount
  hopCount_lt : a.frame.hopCount < 2 ^ 31 - 1

/-- What `check_r_entry` and `update_r_entry` compute from the frame does not overflow. -/
theorem Arrival.From.fits {ip : Ip} {a : Arrival} (ha : a.From ip) :
    (frameRank a.frame).Fits := by
  refine ⟨ha.broadcastId, ?_⟩
  have hhop := ha.hopCount
  have hlt := ha.hopCount_lt
  simp only [frameRank, IsInt32] at hhop ⊢
  omega

/-- What the frame offers to the entry for its source. -/
def Arrival.offer (a : Arrival) : Offer Rank where
  guarded := decide (a.frame.routeDiscFlag = 1)
  value := frameRank a.frame

/-- The node after a frame. -/
def receive (cfg : Config) (st : NodeState) (x : Env × Arrival) : NodeState :=
  (handleEthernetMsg cfg x.1 x.2.intfN x.2.addr x.2.recvBuf st).node

/-- The node after a list of frames, each served in its own environment. -/
def receiveAll (cfg : Config) (st : NodeState) (xs : List (Env × Arrival)) : NodeState :=
  xs.foldl (receive cfg) st

/-- The entry for `ip` is not expired when the frame is served, and the two addresses of
the frame have names. -/
structure Undisturbed (cfg : Config) (ip : Ip) (st : NodeState) (x : Env × Arrival) : Prop where
  fresh : ∀ e, route st.table ip = some e → x.1.srcTime - e.timestamp < cfg.staleParam
  srcName : x.1.resolves x.2.frame.srcIp = true
  destName : x.1.resolves x.2.frame.destIp = true

/-- So it is for every frame of the list. -/
def UndisturbedRun (cfg : Config) (ip : Ip) : NodeState → List (Env × Arrival) → Prop
  | _, [] => True
  | st, x :: xs => Undisturbed cfg ip st x ∧ UndisturbedRun cfg ip (receive cfg st x) xs

/-- There is at most one entry for `ip`. -/
def SingleRoute (table : List REntry) (ip : Ip) : Prop := (table.map REntry.destip).count ip ≤ 1

/-- Every table a node comes to have is of this kind, for every address. -/
theorem UniqueRoutes.single {table : List REntry} (hu : UniqueRoutes table) (ip : Ip) :
    SingleRoute table ip := List.nodup_iff_count_le_one.mp hu ip

theorem SingleRoute.route_of_mem {table : List REntry} {ip : Ip} (hs : SingleRoute table ip)
    {e : REntry} (he : e ∈ table) (hkey : e.destip = ip) : route table ip = some e := by
  obtain ⟨l₁, l₂, rfl⟩ := List.append_of_mem he
  refine findKey_append (fun c hc hc' => ?_) hkey
  have hpos : 0 < (l₁.map REntry.destip).count ip :=
    List.count_pos_iff.mpr (List.mem_map.mpr ⟨c, hc, hc'⟩)
  rw [SingleRoute, List.map_append, List.map_cons, List.count_append, hkey,
    List.count_cons_self] at hs
  omega

section Step

variable {cfg : Config} {ip : Ip} {st : NodeState} {x : Env × Arrival}

theorem Undisturbed.not_deleted (hc : Undisturbed cfg ip st x) (hx : x.2.From ip) :
    ip ∉ deletedBy cfg x.1 x.2.frame st := by
  intro hdel
  rcases mem_deletedBy.mp hdel with ⟨-, hdest⟩ | ⟨hdel, hsrc⟩
  · exact hx.dest hdest.symm
  · have hroute : route (destLookup cfg x.1 x.2.frame st).table ip = route st.table ip :=
      route_getREntry_of_ne hx.dest
    rcases getREntry_cases cfg.staleParam x.1.srcTime x.2.frame.srcIp 0
      (destLookup cfg x.1 x.2.frame st).table with ⟨e, he, hexp, -⟩ | ⟨-, hget⟩
    · rw [← hsrc, hroute] at he
      have := hc.fresh e he
      omega
    · rw [srcLookup, getREntry_list, hget] at hdel
      exact absurd hdel (by simp)

theorem duplicateFilter_iff (hs : SingleRoute st.table ip) (hx : x.2.From ip) :
    duplicateFilter x.2.frame st.table = true ↔
      ∃ e, route st.table ip = some e ∧ x.2.frame.routeDiscFlag = 1 ∧
        x.2.frame.broadcastId ≤ e.broadcastId := by
  rw [duplicateFilter_eq_true_iff, hx.src]
  constructor
  · rintro ⟨hflag, e, he, hkey, hid⟩
    exact ⟨e, hs.route_of_mem he hkey, hflag, hid⟩
  · rintro ⟨e, he, hflag, hid⟩
    exact ⟨hflag, e, (route_mem he).1, (route_mem he).2, hid⟩

/-- Past the filter, the better of the entry and the frame is kept. -/
theorem rankOf_receive_of_processed {type : FrameType} (hs : SingleRoute st.table ip)
    (hx : x.2.From ip) (hc : Undisturbed cfg ip st x)
    (hproc : Processed x.1 x.2.frame st type) :
    rankOf (receive cfg st x) ip = absorb Rank.broadcastId (rankOf st ip) x.2.offer := by
  have hdup := duplicateFilter_iff hs hx
  have hdel := hc.not_deleted hx
  obtain ⟨rfl, -⟩ := hx
  have hroute : route (receive cfg st x).table x.2.frame.srcIp =
      some (learnedRoute cfg x.1 x.2.intfN x.2.addr x.2.frame st).entry := by
    rw [receive, handleEthernetMsg_table hproc]
    exact route_learnedRoute_self x.2.frame
  have hpass : ∀ e, route st.table x.2.frame.srcIp = some e → ¬ (x.2.offer.guarded = true ∧
      x.2.offer.value.broadcastId ≤ (entryRank e).broadcastId) := by
    rintro e he ⟨hflag, hid⟩
    have hfilter := hdup.mpr ⟨e, he, of_decide_eq_true hflag, hid⟩
    exact absurd (hfilter.symm.trans hproc.passes) (by simp)
  rw [rankOf, hroute, Option.map_some, rankOf]
  rcases learnSource_cases x.2.frame x.2.intfN x.2.addr x.1.updateTime
    (srcLookup cfg x.1 x.2.frame st) with ⟨-, hnew, hacc⟩ | ⟨-, hold, hrej⟩
  · -- the entry is rewritten from the frame
    rw [srcLookup_entry_eq hdel] at hacc
    have hrank : entryRank (learnedRoute cfg x.1 x.2.intfN x.2.addr x.2.frame st).entry =
        x.2.offer.value := congrArg entryRank hnew
    rw [hrank]
    cases he : route st.table x.2.frame.srcIp with
    | none => rfl
    | some e =>
        rw [Option.map_some, absorb, if_neg (hpass e he)]
        exact congrArg some (max_eq_right (acceptsUpdate_iff_rank.mp (hacc e he))).symm
  · -- the entry stays
    rw [srcLookup_entry_eq hdel] at hold
    have hlt : ¬ entryRank (learnedRoute cfg x.1 x.2.intfN x.2.addr x.2.frame st).entry ≤
        frameRank x.2.frame := by
      rw [← acceptsUpdate_iff_rank, Bool.not_eq_true]
      exact hrej
    rw [hold, Option.map_some, absorb, if_neg (hpass _ hold)]
    exact congrArg some (max_eq_left (le_of_not_ge hlt)).symm

/-- A frame is an offer to the entry for its source. -/
theorem rankOf_receive (hs : SingleRoute st.table ip) (hx : x.2.From ip)
    (hc : Undisturbed cfg ip st x) :
    rankOf (receive cfg st x) ip = absorb Rank.broadcastId (rankOf st ip) x.2.offer := by
  rcases handleEthernetMsg_cases cfg x.1 x.2.intfN x.2.addr x.2.recvBuf st with
    ⟨hfilter, heq⟩ | ⟨-, hbad, -⟩ | ⟨type, hproc, -⟩
  · -- dropped by the filter: the guard of the offer
    obtain ⟨e, he, hflag, hid⟩ := (duplicateFilter_iff hs hx).mp hfilter
    rw [receive, heq]
    simp only [rankOf, he, Option.map_some, absorb]
    rw [if_pos ⟨decide_eq_true hflag, hid⟩]
  · rcases hbad with hnames | htype
    · exact absurd ⟨hc.srcName, hc.destName⟩ hnames
    · obtain ⟨type, htype'⟩ := hx.type
      exact absurd (htype.symm.trans htype') (by simp)
  · exact rankOf_receive_of_processed hs hx hc hproc

theorem SingleRoute.sublist {table table' : List REntry} (hs : SingleRoute table ip)
    (hsub : table'.Sublist table) : SingleRoute table' ip :=
  ((hsub.map REntry.destip).count_le ip).trans hs

/-- Learning rewrites an entry in place, or inserts one where there was none. -/
theorem SingleRoute.learnSource {f : OdrFrame} {intfN now : Int} {mac : Mac} {src : Lookup}
    (hs : SingleRoute src.table f.srcIp)
    (hsome : ∀ e, src.entry = some e → route src.table f.srcIp = some e)
    (hnone : src.entry = none → route src.table f.srcIp = none) :
    SingleRoute (learnSource f intfN mac now src).table f.srcIp := by
  cases hentry : src.entry with
  | some entry =>
      have hkey := (route_mem (hsome entry hentry)).2
      rw [learnSource_of_some hentry, SingleRoute, map_key_replaceKey (checkREntry_destip hkey)]
      exact hs
  | none =>
      have hzero : (src.table.map REntry.destip).count f.srcIp = 0 := by
        refine List.count_eq_zero.mpr fun hmem => ?_
        obtain ⟨e, he, hkey⟩ := List.mem_map.mp hmem
        exact findKey_eq_none_iff.mp (hnone hentry) e he hkey
      rw [learnSource_of_none hentry, SingleRoute, insertREntry, List.map_cons,
        updateREntry_destip, List.count_cons_self, hzero]

/-- There is still at most one entry for the source. -/
theorem SingleRoute.receive (hs : SingleRoute st.table ip) (hx : x.2.From ip)
    (hc : Undisturbed cfg ip st x) : SingleRoute (receive cfg st x).table ip := by
  have hsub : SingleRoute (srcLookup cfg x.1 x.2.frame st).table ip :=
    (hs.sublist (getREntry_sublist ..)).sublist (getREntry_sublist ..)
  rcases handleEthernetMsg_cases cfg x.1 x.2.intfN x.2.addr x.2.recvBuf st with
    ⟨-, heq⟩ | ⟨-, -, exit, -, heq⟩ | ⟨type, -, heq⟩
  · rw [Proofs.receive, heq]
    exact hs
  · rw [Proofs.receive, heq]
    exact hsub
  · have hdel := hc.not_deleted hx
    obtain ⟨rfl, -⟩ := hx
    rw [Proofs.receive, heq, Reaction.outcome_node, reaction_state.table]
    refine SingleRoute.learnSource hsub (fun _ he => srcLookup_entry he) fun hentry => ?_
    exact (route_srcLookup hdel).trans ((srcLookup_entry_eq hdel).symm.trans hentry)

end Step

/-! ## Lists of frames -/

section Runs

variable {cfg : Config} {ip : Ip} {st : NodeState} {as : List Arrival}

/-- The entry for the source is the register to which the frames are offered. -/
theorem rankOf_receiveAll {xs : List (Env × Arrival)} (hs : SingleRoute st.table ip)
    (hxs : ∀ x ∈ xs, x.2.From ip) (hc : UndisturbedRun cfg ip st xs) :
    rankOf (receiveAll cfg st xs) ip =
      absorbAll Rank.broadcastId Arrival.offer (rankOf st ip) (xs.map Prod.snd) := by
  induction xs generalizing st with
  | nil => rfl
  | cons x xs ih =>
      obtain ⟨hx, hxs⟩ := List.forall_mem_cons.mp hxs
      obtain ⟨hcalm, hrun⟩ := hc
      rw [List.map_cons, absorbAll_cons, ← rankOf_receive hs hx hcalm]
      exact ih (hs.receive hx hcalm) hxs hrun

/-- The entry only takes ranks that fit, if it starts with one. -/
theorem fits_receiveAll {xs : List (Env × Arrival)} (hs : SingleRoute st.table ip)
    (hfit : ∀ r, rankOf st ip = some r → r.Fits) (hxs : ∀ x ∈ xs, x.2.From ip)
    (hc : UndisturbedRun cfg ip st xs) :
    ∀ r, rankOf (receiveAll cfg st xs) ip = some r → r.Fits := by
  intro r hr
  rw [rankOf_receiveAll hs hxs hc] at hr
  rcases List.mem_append.mp (absorbAll_mem hr) with hstart | hoffer
  · exact hfit r (Option.mem_toList.mp hstart)
  · obtain ⟨a, ha, rfl⟩ := List.mem_map.mp hoffer
    obtain ⟨x, hx, rfl⟩ := List.mem_map.mp ha
    exact (hxs x hx).fits

/-- A clock that stands still, before the time stamps of the entries. -/
def steadyEnv (t : Int) : Env where
  destTime := t
  srcTime := t
  updateTime := 0
  resolves := fun _ => true
  sendOk := fun _ => true
  peerOk := true

theorem undisturbedRun_steady {t : Int} (ht : t < 0)
    (hstamp : ∀ e, route st.table ip = some e → t < e.timestamp) (has : ∀ a ∈ as, a.From ip) :
    UndisturbedRun cfg ip st (as.map fun a => (steadyEnv t, a)) := by
  induction as generalizing st with
  | nil => trivial
  | cons a as ih =>
      obtain ⟨ha, has⟩ := List.forall_mem_cons.mp has
      have hcalm : Undisturbed cfg ip st (steadyEnv t, a) := by
        refine ⟨fun e he => ?_, rfl, rfl⟩
        have hlt := hstamp e he
        have hstale := cfg.stale_nonneg
        simp only [steadyEnv]
        omega
      refine ⟨hcalm, ih (fun e he => ?_) has⟩
      have hdel : ip ∉ (handleEthernetMsg cfg (steadyEnv t) a.intfN a.addr a.recvBuf st).deleted :=
        fun hdel => hcalm.not_deleted ha (handleEthernetMsg_deleted_subset hdel)
      rcases handleEthernetMsg_route hdel with hkeep | ⟨_, _, _, hnew, _⟩
      · exact hstamp e (hkeep ▸ he)
      · obtain rfl := Option.some.inj (hnew.symm.trans he)
        exact ht

/-- The ranks in play: that of the entry at the start, and those of the frames. -/
def ranksOf (st : NodeState) (ip : Ip) (as : List Arrival) : List Rank :=
  candidates Arrival.offer (rankOf st ip) as

/-- Whatever the order in which the frames arrive, the entry for `ip` ends with the same
rank, the best of those in play. -/
def OrderIndependent (cfg : Config) (st : NodeState) (ip : Ip) (as : List Arrival) : Prop :=
  (∀ xs ys, (xs.map Prod.snd).Perm as → (ys.map Prod.snd).Perm as → UndisturbedRun cfg ip st xs →
    UndisturbedRun cfg ip st ys →
    rankOf (receiveAll cfg st xs) ip = rankOf (receiveAll cfg st ys) ip) ∧
  ∀ xs, (xs.map Prod.snd).Perm as → UndisturbedRun cfg ip st xs →
    IsBest (ranksOf st ip as) (rankOf (receiveAll cfg st xs) ip)

/-- Every order of the frames can be run without the entry expiring. -/
theorem exists_undisturbedRun (cfg : Config) (st : NodeState) (has : ∀ a ∈ as, a.From ip) :
    ∃ xs : List (Env × Arrival), xs.map Prod.snd = as ∧ UndisturbedRun cfg ip st xs := by
  obtain ⟨t, ht, hstamp⟩ : ∃ t : Int, t < 0 ∧
      ∀ e, route st.table ip = some e → t < e.timestamp := by
    cases route st.table ip with
    | none => exact ⟨-1, by decide, fun e he => absurd he (by simp)⟩
    | some e =>
        refine ⟨min e.timestamp 0 - 1, by omega, fun e' he' => ?_⟩
        obtain rfl := Option.some.inj he'
        omega
  refine ⟨as.map fun a => (steadyEnv t, a), ?_, undisturbedRun_steady ht hstamp has⟩
  rw [List.map_map]
  exact List.map_id as

/-- To end with the best rank in every order is a matter of the register. -/
theorem endsWithBest_iff (cfg : Config) (hs : SingleRoute st.table ip) (has : ∀ a ∈ as, a.From ip) :
    (∀ xs, (xs.map Prod.snd).Perm as → UndisturbedRun cfg ip st xs →
      IsBest (ranksOf st ip as) (rankOf (receiveAll cfg st xs) ip)) ↔
    ∀ b, IsBest (ranksOf st ip as) (some b) →
      ∀ l, l.Perm as → absorbAll Rank.broadcastId Arrival.offer (rankOf st ip) l = some b := by
  have hfrom : ∀ l : List Arrival, l.Perm as → ∀ a ∈ l, a.From ip :=
    fun l hperm a ha => has a (hperm.mem_iff.mp ha)
  have hrank : ∀ xs, (xs.map Prod.snd).Perm as → UndisturbedRun cfg ip st xs →
      rankOf (receiveAll cfg st xs) ip =
        absorbAll Rank.broadcastId Arrival.offer (rankOf st ip) (xs.map Prod.snd) :=
    fun xs hperm hcalm => rankOf_receiveAll hs
      (fun x hx => hfrom _ hperm x.2 (List.mem_map_of_mem hx)) hcalm
  constructor
  · intro hall b hb l hperm
    obtain ⟨xs, rfl, hcalm⟩ := exists_undisturbedRun cfg st (hfrom l hperm)
    rw [← hrank xs hperm hcalm]
    exact (hall xs hperm hcalm).unique hb
  · intro hall xs hperm hcalm
    rw [hrank xs hperm hcalm]
    obtain ⟨r, hr⟩ := exists_isBest (ranksOf st ip as)
    cases r with
    | some b =>
        rw [hall b hr _ hperm]
        exact hr
    | none =>
        cases hend : absorbAll Rank.broadcastId Arrival.offer (rankOf st ip)
            (xs.map Prod.snd) with
        | none => exact hr
        | some w =>
            have hmem : w ∈ ranksOf st ip as :=
              (mem_candidates_perm hperm).mp (absorbAll_mem hend)
            have hnil : ranksOf st ip as = [] := hr
            exact absurd (hnil ▸ hmem) List.not_mem_nil

end Runs

/-! ## Two copies of a request -/

instance (cfg : Config) (ip : Ip) (st : NodeState) (x : Env × Arrival) :
    Decidable (Undisturbed cfg ip st x) :=
  decidable_of_iff
    ((route st.table ip).all (fun e => decide (x.1.srcTime - e.timestamp < cfg.staleParam)) =
        true ∧ x.1.resolves x.2.frame.srcIp = true ∧ x.1.resolves x.2.frame.destIp = true)
    ⟨fun h => ⟨fun e he => by simpa [he] using h.1, h.2.1, h.2.2⟩,
      fun h => ⟨by simpa [Option.all_eq_true] using h.fresh, h.srcName, h.destName⟩⟩

instance decidableUndisturbedRun (cfg : Config) (ip : Ip) (st : NodeState)
    (xs : List (Env × Arrival)) : Decidable (UndisturbedRun cfg ip st xs) :=
  match xs with
  | [] => isTrue trivial
  | x :: xs =>
      have : Decidable (UndisturbedRun cfg ip (receive cfg st x) xs) :=
        decidableUndisturbedRun cfg ip (receive cfg st x) xs
      inferInstanceAs
        (Decidable (Undisturbed cfg ip st x ∧ UndisturbedRun cfg ip (receive cfg st x) xs))

/-- A copy of a request of the first node of the line, at the middle node. -/
def requestCopy (hop flag : Int) : Arrival where
  intfN := 3
  addr := 0
  recvBuf := constructOdr FrameType.rreq.toInt 11 hop 0 flag servPort servPort "10.0.0.9"
    "10.0.0.1" ""

theorem requestCopy_frame (hop flag : Int) :
    (requestCopy hop flag).frame = ⟨FrameType.rreq.toInt, 11, hop, 0, flag, servPort, servPort,
      "10.0.0.9", "10.0.0.1", ""⟩ :=
  processRecvdFrame_constructOdr ..

theorem requestCopy_from {hop : Int} (hhop : 0 ≤ hop ∧ hop < 2 ^ 31 - 1) (flag : Int) :
    (requestCopy hop flag).From "10.0.0.1" := by
  have hint : IsInt32 hop := by
    simp only [IsInt32]
    omega
  have hdest : ("10.0.0.9" : Ip) ≠ "10.0.0.1" := by decide
  have hid : IsInt32 11 := by decide
  constructor <;> rw [requestCopy_frame]
  · exact hdest
  · exact ⟨.rreq, rfl⟩
  · exact hid
  · exact hint
  · exact hhop.2

end OnDemandRouting.Proofs
