import Netloom.Ovn.HealthConvergence

/-!
# Health checks follow the desired state

After every run the rows of a load balancer are those of its desired health checks,
and the planner remembers exactly the health checks that are enabled.
-/
namespace Netloom.Ovn

open Model Control HealthCheckRow Backend List

/-- No load balancer loses a protocol while its health check stays as it is. -/
def KeepsHealthChecks (old next : DesiredState) : Prop :=
  ∀ lb ∈ old.loadBalancers, ∀ lb' ∈ next.loadBalancers, lb.vpc = lb'.vpc → lb.name = lb'.name →
    lb.healthCheck.enabled = true → lb'.healthCheck.enabled = true → DropsProtocol lb lb' →
    ¬ SameHealthCheck lb lb'

/-- No address has a zone, and no VPC name has a zero byte. -/
structure PlainBalancers (state : DesiredState) : Prop where
  vips : ∀ lb ∈ state.loadBalancers, PlainVIP lb
  vpcs : ∀ lb ∈ state.loadBalancers, '\x00' ∉ lb.vpc.toList

/-- No load balancer has this VPC and name. -/
def Untagged (state : DesiredState) (vpc name : String) : Prop :=
  ∀ lb ∈ state.loadBalancers, ¬ (lb.vpc = vpc ∧ lb.name = name)

/-- What holds between two runs. -/
structure HealthInvariant (state : DesiredState) (backend : Backend) (rows : List HealthCheckRow) :
    Prop where
  last : backend.last = snapshotOf state
  nodup : ∀ vpc name, (vipsAt vpc name rows).Nodup
  others : ∀ vpc name, Untagged state vpc name → vipsAt vpc name rows = []
  rows : ∀ lb ∈ state.loadBalancers, (vipsAt lb.vpc lb.name rows).Perm (checkedVIPs lb)
  cached : ∀ key signature,
    backend.planner.loadBalancerHealthChecks.lookup key = some signature ↔
      ∃ lb ∈ state.loadBalancers, loadBalancerStateKey lb = key ∧ lb.healthCheck.enabled = true ∧
        loadBalancerHealthCheckSignature lb = signature

theorem healthInvariant_initial : HealthInvariant {} {} [] where
  last := rfl
  nodup := fun _ _ => nodup_nil
  others := fun _ _ _ => rfl
  rows := nofun
  cached := by simp

/-! ### Keys -/

variable {state : DesiredState} {lb : LoadBalancer}

theorem lookup_loadBalancers (keyed : Keyed state) {key : String} :
    (snapshotOf state).loadBalancers.lookup key = some lb ↔
      lb ∈ state.loadBalancers ∧ loadBalancerStateKey lb = key :=
  lookup_rekeyed keyed.loadBalancers

theorem tag_of_key {lb' : LoadBalancer} (free : '\x00' ∉ lb.vpc.toList)
    (free' : '\x00' ∉ lb'.vpc.toList) (key : loadBalancerStateKey lb = loadBalancerStateKey lb') :
    lb.vpc = lb'.vpc ∧ lb.name = lb'.name := by
  have texts := congrArg String.toList key
  simp only [loadBalancerStateKey, stateKey, String.toList_append, append_assoc] at texts
  obtain ⟨vpc, name⟩ := Text.cut_injective free free' (show lb.vpc.toList ++ '\x00' ::
    lb.name.toList = lb'.vpc.toList ++ '\x00' :: lb'.name.toList from texts)
  exact ⟨String.toList_injective vpc, String.toList_injective name⟩

theorem eq_of_key (keyed : Keyed state) {lb' : LoadBalancer} (member : lb ∈ state.loadBalancers)
    (member' : lb' ∈ state.loadBalancers)
    (key : loadBalancerStateKey lb = loadBalancerStateKey lb') : lb = lb' :=
  inj_on_of_nodup_map keyed.loadBalancers member member' key

/-! ### One run -/

section

variable {sha256 : Sha256} {old next : DesiredState} {backend : Backend} {rows : List HealthCheckRow}

/-- What acceptance says of the load balancers. -/
structure SoundBalancers (state : DesiredState) : Prop where
  accepted : ∀ lb ∈ state.loadBalancers, BalancerAccepted lb
  keyed : Keyed state
  plain : PlainBalancers state

/-- What one run starts from. -/
structure HealthRun (old next : DesiredState) (backend : Backend) (rows : List HealthCheckRow) :
    Prop extends HealthInvariant old backend rows, SoundBalancers old where
  sound : SoundBalancers next
  keeps : KeepsHealthChecks old next

/-- The load balancer was there and has lost a protocol. -/
def Reduced (old : DesiredState) (lb' : LoadBalancer) : Prop :=
  ∃ lb ∈ old.loadBalancers, lb.vpc = lb'.vpc ∧ lb.name = lb'.name ∧ DropsProtocol lb lb'

namespace HealthRun

variable (run : HealthRun old next backend rows)

/-- The load balancers that the cleanup has found unchanged. -/
def skipped (old next : DesiredState) : StringMap :=
  unchangedLoadBalancers (snapshotOf old) (snapshotOf next)

include run

variable {lb' : LoadBalancer}

section

variable (member' : lb' ∈ next.loadBalancers)

include member'

/-- A load balancer that is skipped has the health check of its old version. -/
theorem same_of_skips
    (skip : skips (skipped old next) (loadBalancerStateKey lb') (loadBalancerSignature lb') =
      true) :
    ∃ lb ∈ old.loadBalancers, loadBalancerStateKey lb = loadBalancerStateKey lb' ∧
      lb.vpc = lb'.vpc ∧ lb.name = lb'.name ∧
      lb.healthCheck.enabled = lb'.healthCheck.enabled ∧
      (lb.healthCheck.enabled → SameHealthCheck lb lb') := by
  have wellKeyed : WellKeyed loadBalancerStateKey (snapshotOf next).loadBalancers :=
    wellKeyed_insertAll _ _
  rw [skips, decide_eq_true_eq, skipped, unchangedLoadBalancers, lookup_unchanged wellKeyed] at skip
  obtain ⟨lb, after, held, held', same, _⟩ := skip
  obtain ⟨member, key⟩ := (lookup_loadBalancers run.keyed).mp held
  obtain ⟨listed, key'⟩ := (lookup_loadBalancers run.sound.keyed).mp held'
  obtain rfl := eq_of_key run.sound.keyed listed member' key'
  rw [decide_eq_true_eq] at same
  obtain ⟨vpc, name⟩ := tag_of_signature key same
  exact ⟨lb, member, key, vpc, name, health_of_signature (run.accepted lb member)
    (run.sound.accepted _ member') (run.plain.vips lb member) (run.sound.plain.vips _ member') key same⟩

/-- So has one whose health check is the remembered one. -/
theorem same_of_cached (enabled : lb'.healthCheck.enabled)
    (known : backend.planner.loadBalancerHealthChecks.lookup (loadBalancerStateKey lb') =
      some (loadBalancerHealthCheckSignature lb')) :
    ∃ lb ∈ old.loadBalancers, lb.vpc = lb'.vpc ∧ lb.name = lb'.name ∧
      lb.healthCheck.enabled ∧ SameHealthCheck lb lb' := by
  obtain ⟨lb, member, key, on, same⟩ := (run.cached _ _).mp known
  obtain ⟨vpc, name⟩ := tag_of_key (run.plain.vpcs lb member) (run.sound.plain.vpcs lb' member') key
  refine ⟨lb, member, vpc, name, on, ?_⟩
  have texts : (loadBalancerHealthCheckSignature lb).toList ++ [] =
      (loadBalancerHealthCheckSignature lb').toList ++ [] := by rw [same]
  exact sameHealthCheck_of_text (run.accepted lb member) (run.sound.accepted lb' member')
    (run.plain.vips lb member) (run.sound.plain.vips lb' member') vpc name on enabled (by simp)
    (by simp) texts

/-- A signature is never empty, so what equals it has been remembered. -/
theorem lookup_of_known (enabled : lb'.healthCheck.enabled) {cached : Option String}
    (known : cached.getD "" = loadBalancerHealthCheckSignature lb') :
    cached = some (loadBalancerHealthCheckSignature lb') := by
  obtain ⟨rest, head⟩ := head_healthCheckSignature (run.sound.accepted lb' member') enabled
  cases cached with
  | none =>
    rw [← known] at head
    exact absurd head (by simp)
  | some signature => rw [← known, Option.getD_some]

/-- The planner remembers the health checks that are enabled. -/
theorem cachedAfter_eq :
    cachedAfter (skipped old next)
        (backend.planner.loadBalancerHealthChecks.lookup (loadBalancerStateKey lb')) lb' =
      if lb'.healthCheck.enabled then some (loadBalancerHealthCheckSignature lb')
      else none := by
  rw [cachedAfter]
  split
  · next skip =>
    obtain ⟨lb, member, key, vpc, name, enabled, same⟩ := run.same_of_skips member' skip
    split
    · next on =>
      rw [run.cached]
      exact ⟨lb, member, key, enabled.trans on,
        healthCheckSignature_of_same (same (enabled.trans on)) enabled⟩
    · next off =>
      -- nothing is remembered under this key, which is that of a disabled one
      rw [Option.eq_none_iff_forall_not_mem]
      intro signature held
      obtain ⟨other, listed, key', on, _⟩ := (run.cached _ _).mp held
      obtain rfl := eq_of_key run.keyed listed member (key'.trans key.symm)
      exact off (enabled.symm.trans on)
  · cases on : lb'.healthCheck.enabled with
    | false => simp
    | true =>
      simp only [Bool.true_eq_false, if_false, if_true, ite_eq_right_iff]
      exact run.lookup_of_known member' on

/-- The cleanup leaves the rows of a load balancer that stays, or destroys them because the
load balancer has lost a protocol. -/
theorem cleanup_eq (vips : List String) :
    ((planCleanup sha256 next backend).2.filter (touches lb'.vpc lb'.name)).foldl vipStep vips =
        vips ∨
      ((planCleanup sha256 next backend).2.filter (touches lb'.vpc lb'.name)).foldl vipStep vips =
          [] ∧ Reduced old lb' := by
  have each : ∀ op ∈ (planCleanup sha256 next backend).2.filter (touches lb'.vpc lb'.name),
      (∀ vips, vipStep vips op = []) ∧ Reduced old lb' := by
    intro op member
    have touch := (mem_filter.mp member).2
    have last : backend.beginTopologyReconcile.last = snapshotOf old := run.last
    rcases healthCheck_of_cleanup sha256 member with ⟨lb, gone, rfl⟩ | ⟨pair, shared, rfl, removed⟩
    · -- a load balancer that is gone has another tag
      rw [last, mem_staleValues] at gone
      obtain ⟨key, held, absent⟩ := gone
      simp only [touches, Bool.and_eq_true, decide_eq_true_eq] at touch
      have here : loadBalancerStateKey lb' = key := by
        rw [← ((lookup_loadBalancers run.keyed).mp held).2, loadBalancerStateKey,
          loadBalancerStateKey, touch.1, touch.2]
      rw [(lookup_loadBalancers run.sound.keyed).mpr ⟨member', here⟩] at absent
      cases absent
    · rw [last, mem_commonValues] at shared
      obtain ⟨key, held, held'⟩ := shared
      simp only [touches, Bool.and_eq_true, decide_eq_true_eq] at touch
      obtain ⟨listed, here⟩ := (lookup_loadBalancers run.keyed).mp held
      obtain ⟨listed', here'⟩ := (lookup_loadBalancers run.sound.keyed).mp held'
      have same : pair.2 = lb' := by
        refine eq_of_key run.sound.keyed listed' member' ?_
        rw [here', ← here, loadBalancerStateKey, loadBalancerStateKey, touch.1, touch.2]
      rw [same] at removed
      exact ⟨fun _ => rfl, pair.1, listed, touch.1, touch.2,
        dropsProtocol_of_removed sha256 touch.1 touch.2 removed⟩
  rw [foldl_vipStep_of_clears fun op member => (each op member).1]
  split
  · exact .inl rfl
  · next some =>
    obtain ⟨op, member⟩ := exists_mem_of_ne_nil _ some
    exact .inr ⟨rfl, (each op member).2⟩

/-- The run leaves the rows of the desired health checks. -/
theorem perm_checkedVIPs {mid : List String}
    (nodup : mid.Nodup) (cleaned : mid = vipsAt lb'.vpc lb'.name rows ∨ mid = [] ∧
      Reduced old lb') :
    ((healthOps sha256 (skipped old next) (backend.planner.loadBalancerHealthChecks.lookup
      (loadBalancerStateKey lb')) lb').foldl vipStep mid).Perm (checkedVIPs lb') := by
  -- rows are left alone only if an old version has the same health check, and then they are there
  have left : ∀ lb ∈ old.loadBalancers, lb.vpc = lb'.vpc → lb.name = lb'.name →
      lb.healthCheck.enabled = lb'.healthCheck.enabled →
      (lb.healthCheck.enabled → SameHealthCheck lb lb') → mid.Perm (checkedVIPs lb') := by
    intro lb member vpc name enabled same
    have rowsOf : (vipsAt lb'.vpc lb'.name rows).Perm (checkedVIPs lb) :=
      vpc ▸ name ▸ run.rows lb member
    cases on : lb.healthCheck.enabled with
    | false =>
      rw [checkedVIPs, on, if_neg (by simp)] at rowsOf
      rw [checkedVIPs, ← enabled, on, if_neg (by simp)]
      rcases cleaned with rfl | ⟨rfl, _⟩
      · exact rowsOf
      · exact List.Perm.nil
    | true =>
      rw [checkedVIPs, on, if_pos rfl] at rowsOf
      rw [checkedVIPs, ← enabled, on, if_pos rfl]
      rcases cleaned with rfl | ⟨_, other, listed, vpc', name', drops⟩
      · exact rowsOf.trans (same on).2
      · have equal : other = lb := by
          refine eq_of_key run.keyed listed member ?_
          rw [loadBalancerStateKey, loadBalancerStateKey, vpc', name', vpc, name]
        subst equal
        exact absurd (same on) (run.keeps other listed lb' member' vpc' name' on
          (enabled.symm.trans on) drops)
  rw [healthOps]
  split
  · next skip =>
    obtain ⟨lb, member, _, vpc, name, enabled, same⟩ := run.same_of_skips member' skip
    exact left lb member vpc name enabled same
  · split
    · next off => simp [checkedVIPs, off, vipStep]
    · next on =>
      rw [Bool.not_eq_false] at on
      split
      · next known =>
        obtain ⟨lb, member, vpc, name, on', same⟩ :=
          run.same_of_cached member' on (run.lookup_of_known member' on known)
        exact left lb member vpc name (on'.trans on.symm) fun _ => same
      · -- every address has got a row, and all other rows are gone
        rw [checkedVIPs, on, if_pos rfl, foldl_append, foldl_cons, foldl_nil, vipStep,
          perm_ext_iff_of_nodup ((nodup_foldl_vipStep _ nodup).filter _)
            (nodup_tcpVIPs (run.sound.accepted lb' member'))]
        intro vip
        rw [mem_filter, ensureHealthChecks, Cells.mem_foldl_add fun _ _ => rfl, contains_iff_mem]
        exact ⟨fun both => both.2, fun listed => ⟨.inr listed, listed⟩⟩

end

/-- The cleanup leaves no row of a tag that no load balancer has any more. -/
theorem cleanup_untagged {vpc name : String} (untagged : Untagged next vpc name) :
    ((planCleanup sha256 next backend).2.filter (touches vpc name)).foldl vipStep
      (vipsAt vpc name rows) = [] := by
  have last : backend.beginTopologyReconcile.last = snapshotOf old := run.last
  have clears : ∀ op ∈ (planCleanup sha256 next backend).2.filter (touches vpc name),
      ∀ vips, vipStep vips op = [] := by
    intro op member vips
    rcases healthCheck_of_cleanup sha256 member with ⟨_, _, rfl⟩ | ⟨_, _, rfl, _⟩ <;> rfl
  rw [foldl_vipStep_of_clears clears, ite_eq_right_iff]
  intro none
  refine run.others vpc name fun lb member tag => ?_
  obtain ⟨rfl, rfl⟩ := tag
  -- a load balancer with this tag was there, so its rows are destroyed
  have gone : lb ∈ staleValues (backend.beginTopologyReconcile).last.loadBalancers
      (snapshotOf next).loadBalancers := by
    rw [last, mem_staleValues]
    refine ⟨_, (lookup_loadBalancers run.keyed).mpr ⟨member, rfl⟩, ?_⟩
    rw [Option.eq_none_iff_forall_not_mem]
    intro lb' held
    obtain ⟨member', key⟩ := (lookup_loadBalancers run.sound.keyed).mp held
    exact untagged lb' member' (tag_of_key (run.sound.plain.vpcs lb' member')
      (run.plain.vpcs lb member) key)
  have destroyed := cleanup_of_stale sha256 gone
  rw [show (backend.beginTopologyReconcile.cleanupPlan sha256 (snapshotOf next)).filter
    (touches lb.vpc lb.name) = [] from none] at destroyed
  exact absurd destroyed not_mem_nil

/-- One run keeps the invariant. -/
theorem after : HealthInvariant next (planRun sha256 next backend).1
    ((planRun sha256 next backend).2.foldl step rows) := by
  have nodupKeys : (next.loadBalancers.map loadBalancerStateKey).Nodup := run.sound.keyed.loadBalancers
  rw [planRun_eq]
  -- the load balancers are planned with what the cleanup has left
  obtain ⟨view, quiet⟩ := quiet_planObjects sha256 next (planCleanup sha256 next backend).1
  generalize middle : planObjects sha256 next (planCleanup sha256 next backend).1 = between
    at view quiet
  simp only [healthView, Prod.mk.injEq] at view
  obtain ⟨last, skip, cache⟩ := view
  have skip' : between.1.skipLB = skipped old next := by
    rw [skip]
    show unchangedLoadBalancers backend.last _ = _
    rw [run.last, skipped]
  have cache' : ∀ key, between.1.planner.loadBalancerHealthChecks.lookup key =
      (backend.planner.loadBalancerHealthChecks.lookup key).filter fun _ =>
        ((snapshotOf next).loadBalancers.lookup key).isSome := by
    intro key
    rw [cache]
    exact Fold.lookup_keep _ _ key
  have kept : ∀ lb' ∈ next.loadBalancers,
      between.1.planner.loadBalancerHealthChecks.lookup (loadBalancerStateKey lb') =
        backend.planner.loadBalancerHealthChecks.lookup (loadBalancerStateKey lb') := by
    intro lb' member'
    rw [cache', (lookup_loadBalancers run.sound.keyed).mpr ⟨member', rfl⟩]
    cases backend.planner.loadBalancerHealthChecks.lookup (loadBalancerStateKey lb') <;> rfl
  have gone : ∀ key, key ∉ next.loadBalancers.map loadBalancerStateKey →
      between.1.planner.loadBalancerHealthChecks.lookup key = none := by
    intro key absent
    have empty : (snapshotOf next).loadBalancers.lookup key = none := by
      rw [Option.eq_none_iff_forall_not_mem]
      intro lb held
      obtain ⟨listed, here⟩ := (lookup_loadBalancers run.sound.keyed).mp held
      exact absent (mem_map.mpr ⟨lb, listed, here⟩)
    rw [cache', empty]
    simp
  obtain ⟨others, each⟩ := planAll_loadBalancers sha256 nodupKeys between.1
  obtain ⟨planner, fields⟩ := planAll_fst (planLoadBalancer sha256) next.loadBalancers between.1
  have views : ∀ vpc name, vipsAt vpc name ((planThen (planCleanup sha256 next)
      (planThen (planObjects sha256 next) (planAll (planLoadBalancer sha256) next.loadBalancers))
      backend).2.foldl step rows) =
      ((planAll (planLoadBalancer sha256) next.loadBalancers between.1).2.filter
        (touches vpc name)).foldl vipStep
          (((planCleanup sha256 next backend).2.filter (touches vpc name)).foldl vipStep
            (vipsAt vpc name rows)) := by
    intro vpc name
    rw [(framed vpc name).view_foldl]
    simp [planThen, middle, quiet vpc name]
  refine ⟨?_, fun vpc name => ?_, fun vpc name untagged => ?_, fun lb' member' => ?_,
    fun key signature => ?_⟩
  · simp only [planThen, middle, fields, last]
    rfl
  · rw [views]
    exact nodup_foldl_vipStep _ (nodup_foldl_vipStep _ (run.nodup vpc name))
  · rw [views, filter_planAll_eq_nil sha256 untagged, foldl_nil, run.cleanup_untagged untagged]
  · rw [views, (each lb' member').2, skip', kept lb' member']
    refine run.perm_checkedVIPs member'
      (nodup_foldl_vipStep _ (run.nodup _ _)) (run.cleanup_eq member' _)
  · simp only [planThen, middle]
    by_cases there : key ∈ next.loadBalancers.map loadBalancerStateKey
    · obtain ⟨lb', member', rfl⟩ := mem_map.mp there
      rw [(each lb' member').1, skip', kept lb' member', run.cachedAfter_eq member']
      constructor
      · grind
      · rintro ⟨lb, listed, key, on, rfl⟩
        obtain rfl := eq_of_key run.sound.keyed listed member' key
        rw [if_pos on]
    · rw [others key there, gone key there]
      grind

end HealthRun

end

/-! ### Many runs -/

/-- The executor of the operations on health checks, which never fails. -/
def healthExecution : List Operation → EStateM String (List HealthCheckRow) Unit :=
  execution fun rows op => some (step rows op)

/-- The controller's runs over some states, one after the other. -/
def reconcileAll (sha256 : Sha256) (states : List DesiredState) :
    EStateM String (Backend × List HealthCheckRow) Unit :=
  states.forM (reconcile sha256 healthExecution (fun _ => .ok ()) (.ok ()))

theorem reconcile_healthExecution {sha256 : Sha256} (accepted : validateState sha256 state = .ok ())
    (backend : Backend) (rows : List HealthCheckRow) :
    reconcile sha256 healthExecution (fun _ => .ok ()) (.ok ()) state (backend, rows) =
      .ok () ((planRun sha256 state backend).1, (planRun sha256 state backend).2.foldl step rows) :=
  reconcile_of_planRun accepted foldlM_pure

/-- From a state that keeps the invariant, runs over accepted states succeed and keep it. -/
theorem healthInvariant_reconcileAll {sha256 : Sha256} {states : List DesiredState}
    {old : DesiredState} {backend : Backend} {rows : List HealthCheckRow}
    (before : HealthInvariant old backend rows) (sound : SoundBalancers old)
    (each : ∀ state ∈ states, validateState sha256 state = .ok () ∧ PlainBalancers state)
    (steps : (old :: states).IsChain KeepsHealthChecks) :
    ∃ backend' rows', reconcileAll sha256 states (backend, rows) = .ok () (backend', rows') ∧
      HealthInvariant (states.getLastD old) backend' rows' := by
  induction states generalizing old backend rows with
  | nil => exact ⟨backend, rows, rfl, before⟩
  | cons next rest ih =>
    obtain ⟨valid, plain⟩ := each next (by simp)
    rw [isChain_cons_cons] at steps
    have sound' : SoundBalancers next :=
      ⟨fun _ => balancerAccepted_of_validateState valid, keyed_of_validateState valid, plain⟩
    have run : HealthRun old next backend rows := ⟨before, sound, sound', steps.1⟩
    obtain ⟨backend', rows', returned, kept⟩ := ih run.after sound'
      (fun state member => each state (by simp [member])) steps.2
    refine ⟨backend', rows', ?_, by rwa [getLastD_cons]⟩
    exact Stateful.bind_eq_ok.mpr ⟨(), _, reconcile_healthExecution valid backend rows, returned⟩

/-- After every run the rows of a load balancer are one for each of its TCP frontends if its
health check is enabled, and none otherwise, as long as no load balancer has lost a protocol
while its health check stayed as it was. No row is left of a load balancer that is gone. -/
theorem healthChecks_converge (sha256 : Sha256) (states : List DesiredState) (state : DesiredState)
    (accepted : ∀ s ∈ states ++ [state], validateState sha256 s = .ok () ∧ PlainBalancers s)
    (steps : (states ++ [state]).IsChain KeepsHealthChecks) :
    ∃ backend rows, reconcileAll sha256 (states ++ [state]) ({}, []) = .ok () (backend, rows) ∧
      (∀ lb ∈ state.loadBalancers,
        (vipsAt lb.vpc lb.name rows).Perm (if lb.healthCheck.enabled then tcpVIPs lb else [])) ∧
      ∀ vpc name, Untagged state vpc name → vipsAt vpc name rows = [] := by
  have initial : (({} : DesiredState) :: (states ++ [state])).IsChain KeepsHealthChecks := by
    exact isChain_cons.mpr ⟨fun _ _ => nofun, steps⟩
  obtain ⟨backend, rows, returned, kept⟩ := healthInvariant_reconcileAll healthInvariant_initial
    ⟨nofun, keyed_of_validateState (show validateState sha256 {} = .ok () from rfl), nofun, nofun⟩
    accepted initial
  rw [getLastD_concat] at kept
  exact ⟨backend, rows, returned, kept.rows, kept.others⟩

/-! ### A load balancer that loses a protocol -/

def webSubnet : Subnet where
  name := "net"
  vpc := "red"
  cidr := Netip.prefixFrom (.v4 0xc0a80000) 24
  gateway := .v4 0xc0a80001

def webPort (protocol : Protocol) : LoadBalancerPort :=
  ⟨"", 80, protocol, [⟨.v4 0xc0a80002, 8080, none⟩]⟩

/-- A load balancer with a health check, and the network it needs. -/
def webState (protocols : List Protocol) (interval : BitVec 32) : DesiredState where
  vpcs := [⟨"red"⟩]
  subnets := [webSubnet]
  loadBalancers := [⟨"web", "red", .v4 0xcb007101, protocols.map webPort, [], false, 0, [],
    ⟨true, interval, 0, 0, 0⟩⟩]

theorem webState_accepted : validateState (fun _ => []) (webState [.tcp, .udp] 0) = .ok () ∧
    validateState (fun _ => []) (webState [.tcp] 0) = .ok () ∧
    validateState (fun _ => []) (webState [.tcp] 7) = .ok () := by
  decide +kernel

/-- The rows stay if the interval changes together with the protocols. -/
theorem healthChecks_converge_web : ∃ backend rows,
    reconcileAll (fun _ => []) ([webState [.tcp, .udp] 0] ++ [webState [.tcp] 7]) ({}, []) =
      .ok () (backend, rows) ∧
    (∀ lb ∈ (webState [.tcp] 7).loadBalancers,
      (vipsAt lb.vpc lb.name rows).Perm (if lb.healthCheck.enabled then tcpVIPs lb else [])) ∧
    ∀ vpc name, Untagged (webState [.tcp] 7) vpc name → vipsAt vpc name rows = [] := by
  have plain : ∀ protocols interval, PlainBalancers (webState protocols interval) := by
    intro protocols interval
    constructor
    · intro lb member
      rw [mem_singleton.mp member]
      rfl
    · intro lb member
      rw [mem_singleton.mp member]
      exact (by decide : '\x00' ∉ "red".toList)
  refine healthChecks_converge (fun _ => []) _ _ ?_ ?_
  · simp only [cons_append, nil_append, forall_mem_cons]
    exact ⟨⟨webState_accepted.1, plain _ _⟩, ⟨webState_accepted.2.2, plain _ _⟩, by simp⟩
  · refine isChain_pair.mpr fun lb member lb' member' _ _ _ _ _ same => ?_
    rw [mem_singleton.mp member, mem_singleton.mp member'] at same
    exact absurd same.1 (by decide)

/-- They are lost if it does not. -/
theorem healthChecks_lost_web : ∃ backend rows,
    reconcileAll (fun _ => []) [webState [.tcp, .udp] 0, webState [.tcp] 0] ({}, []) =
      .ok () (backend, rows) ∧
    ∃ lb ∈ (webState [.tcp] 0).loadBalancers, lb.healthCheck.enabled = true ∧
      tcpVIPs lb = ["203.0.113.1:80"] ∧ vipsAt lb.vpc lb.name rows = [] := by
  refine ⟨_, _, Stateful.bind_eq_ok.mpr ⟨(), _,
    reconcile_healthExecution webState_accepted.1 _ _, Stateful.bind_eq_ok.mpr ⟨(), _,
      reconcile_healthExecution webState_accepted.2.1 _ _, rfl⟩⟩, ?_⟩
  refine ⟨_, mem_singleton_self _, rfl, by decide +kernel, ?_⟩
  decide +kernel

end Netloom.Ovn
