/-
  The boot process (`initramfs/main/init.c`).

  `main_init` runs the phases of the boot process in a fixed order, each one with a latch,
  and switches to newroot at last.

  * `mainBoot_phases`: the phases are begun in order, and none is left out before newroot
    is switched to, except for those that a flag disables.
  * `mainBoot_failures`: no failure of a phase is passed over.
  * `mainBoot_ends`: without on-error shells the boot process ends, at the first failure.
  * `mainBoot_hooks`: hooks are told whether they are run again.
  * `mainBoot_network`: hooks are told whether there is a network, and it is shut down.
-/
import Fischstaebchen.Initramfs.BootParts

namespace Fischstaebchen

open Lib

section
variable {σ : Type} (S : BootParts σ) (host : Host)

/-! ## Statements -/

/-- `IRUN`. -/
def irun (desc : String) (funcCall : Boot σ ℤ) : Boot σ Unit :=
  initramfsFailLatch S.toBootSystem (.phase desc.toList) funcCall

/-- `IRUN_CRITICAL_HOOK`. -/
def irunCriticalHook (phase : String) : Boot σ Unit :=
  irun S (phase ++ " hook") do
    let r ← initramfsRunHook S.toBootSystem phase.toList true
    pure r.1

/-- A builtin that is disabled by any of some flag files. -/
def irunBuiltin (flags : List String) (desc builtin : String) (funcCall : Boot σ ℤ) :
    Boot σ Unit := do
  let enabled ← Prog.step fun st =>
    (flags.all fun flag => ishareHasNotFlag S flag.toList st.sys, st)
  if enabled then irun S desc funcCall else Prog.emit (.notUsing builtin.toList)

/-! ## `main_init` -/

/-- `initramfs_additional_env_exports`. -/
def additionalEnvExports : Boot σ Unit :=
  Prog.step fun st => ((), { st with env := initramfsAdditionalEnvExports host st.g st.env })

/-- The early attempt to load the modules, with `did_load_modules`. -/
def loadModulesEarly : Boot σ Bool := do
  let st ← Prog.step fun st => (st, st)
  if st.g.loadModules.length > 0 ∧ haveModulesDir S st then do
    let ret ← loadModules S st.g.loadModules
    pure (ret = 0)
  else pure false

/-- Loading the modules if that has not been done. -/
def loadModulesLate (didLoadModules : Bool) : Boot σ Unit := do
  let modules ← Prog.step fun st => (st.g.loadModules, st)
  if didLoadModules = false ∧ modules.length > 0 then
    irun S "load modules" (loadModules S modules)
  else pure ()

/-- Whether the network is up after its hook. -/
def netIsUp (r : ℤ × Bool) (sys : σ) : Bool :=
  decide (r.1 = 0) && (r.2 && ishareHasFlag S "have-net".toList sys)

/-- Setting up the network. -/
def netIfup : Boot σ Unit := do
  let r ← initramfsRunHook S.toBootSystem "net-ifup".toList true
  Prog.step fun st =>
    let haveNetwork : ℤ := if netIsUp S r st.sys then 1 else 0
    ((), { st with haveNetwork, env := exportEnvShbool "HAVE_NET" haveNetwork st.env })

/-- Shutting down the network. -/
def netIfdown : Boot σ Unit := do
  let haveNetwork ← Prog.step fun st => (st.haveNetwork, st)
  if haveNetwork ≠ 0 then do
    irunCriticalHook S "net-ifdown"
    Prog.step fun st =>
      ((), { st with haveNetwork := 0, env := exportEnvShbool "HAVE_NET" 0 st.env })
  else pure ()

/-- The phases up to the network. -/
def mainBootSetup : Boot σ Bool := do
  irun S "init rundir" (initramfsInitRundir S)
  additionalEnvExports host
  irunCriticalHook S "early-env-setup"
  irunCriticalHook S "parse-cmdline"
  irunCriticalHook S "env-setup"
  let didLoadModules ← loadModulesEarly S
  irunCriticalHook S "devfs-setup"
  irun S "wait for disk devices" (initramfsWaitforDiskDevices S)
  irunCriticalHook S "net-setup"
  pure didLoadModules

/-- The phases that set up newroot. -/
def mainBootNewroot (didLoadModules : Bool) : Boot σ Unit := do
  irunCriticalHook S "post-net"
  loadModulesLate S didLoadModules
  irun S "initramfs mounts" (initramfsPremount S "base")
  irunCriticalHook S "pre-mount-newroot"
  irun S "early initramfs aux mounts" (auxPremount S "early")
  irunBuiltin S ["no-mount-root"] "mount / in newroot" "mount-root" (initramfsMountNewrootRoot S)
  irunCriticalHook S "mount-newroot"
  irunBuiltin S ["no-mount-usr", "want-squashed-usr"] "mount /usr in newroot" "mount-usr"
    (initramfsMountNewrootUsr S)
  irun S "newroot mounts" (newrootPremount S "base")
  irunCriticalHook S "post-mount-newroot"
  irun S "initramfs aux mounts" (auxPremount S "base")
  irunCriticalHook S "subtree-mount"
  irun S "newroot subtree mounts" (newrootPremount S "subtree")
  irunCriticalHook S "populate-newroot"
  irun S "newroot basemounts" (sysCall (initramfsNewrootBasemounts S.mounts))
  irunBuiltin S ["no-premount"] "newroot fstab premount" "premount-newroot"
    (initramfsNewrootPremount S)
  irunBuiltin S ["no-mount-tmpdir"] "newroot mount tmpdir" "mount-tmpdir" (mountNewrootTmpdir S)
  irunBuiltin S ["no-user-tmpdirs"] "newroot tmpdir setup" "user-tmpdirs setup"
    (initramfsSetupNewrootTmpdir S)
  irunCriticalHook S "setup-newroot"
  irunCriticalHook S "finalize-newroot"

/-- The phases that leave the initramfs. -/
def mainBootLeave : Boot σ ℤ := do
  irun S "preswitch shell" (initramfsRunUserPreswitchShellIfRequested S.toBootSystem)
  irun S "override-init"
    (initramfsHacksOverrideInitProg S (initramfsRunConfdir ++ "/init_prog".toList))
  irun S "switch to newroot" (initramfsSwitchRoot S)
  pure 0

/-- The phases after newroot has been set up. -/
def mainBootSwitch : Boot σ ℤ := do
  let _ ← initramfsEjectAuxMounts S
  netIfdown S
  mainBootLeave S

/-- `main_init`, after `default_initramfs_start`. -/
def mainBoot : Boot σ ℤ := do
  let didLoadModules ← mainBootSetup S host
  netIfup S
  mainBootNewroot S didLoadModules
  mainBootSwitch S

end

/-! ## Schedules -/

/-- The phases of a schedule that are begun; those marked may be left out. -/
inductive Follows : List (CStr × Bool) → List CStr → Prop
  | nil : Follows [] []
  | run {desc : CStr} {opt : Bool} {items : List (CStr × Bool)} {descs : List CStr} :
      Follows items descs → Follows ((desc, opt) :: items) (desc :: descs)
  | skip {desc : CStr} {items : List (CStr × Bool)} {descs : List CStr} :
      Follows items descs → Follows ((desc, true) :: items) descs

theorem Follows.append {items items' : List (CStr × Bool)} {descs descs' : List CStr}
    (h : Follows items descs) (h' : Follows items' descs') :
    Follows (items ++ items') (descs ++ descs') := by
  induction h with
  | nil => exact h'
  | run _ ih => exact .run ih
  | skip _ ih => exact .skip ih

theorem Follows.eq_nil {descs : List CStr} (h : Follows [] descs) : descs = [] := by
  cases h; rfl

theorem Follows.eq_singleton {desc : CStr} {descs : List CStr} (h : Follows [(desc, false)] descs) :
    descs = [desc] := by
  cases h with
  | run h => cases h; rfl

theorem follows_all (items : List (CStr × Bool)) : Follows items (items.map Prod.fst) := by
  induction items with
  | nil => exact .nil
  | cons item items ih => exact .run ih

/-- The phases up to the network. -/
def setupSchedule : List (CStr × Bool) :=
  [("init rundir", false), ("early-env-setup hook", false), ("parse-cmdline hook", false),
    ("env-setup hook", false), ("devfs-setup hook", false), ("wait for disk devices", false),
    ("net-setup hook", false)].map fun item => (item.1.toList, item.2)

/-- The phases that set up newroot. -/
def newrootSchedule : List (CStr × Bool) :=
  [("post-net hook", false), ("load modules", true), ("initramfs mounts", false),
    ("pre-mount-newroot hook", false), ("early initramfs aux mounts", false),
    ("mount / in newroot", true), ("mount-newroot hook", false), ("mount /usr in newroot", true),
    ("newroot mounts", false), ("post-mount-newroot hook", false), ("initramfs aux mounts", false),
    ("subtree-mount hook", false), ("newroot subtree mounts", false),
    ("populate-newroot hook", false), ("newroot basemounts", false),
    ("newroot fstab premount", true), ("newroot mount tmpdir", true),
    ("newroot tmpdir setup", true), ("setup-newroot hook", false),
    ("finalize-newroot hook", false)].map fun item => (item.1.toList, item.2)

/-- The phases that leave the initramfs. -/
def leaveSchedule : List (CStr × Bool) :=
  [("preswitch shell", false), ("override-init", false),
    ("switch to newroot", false)].map fun item => (item.1.toList, item.2)

/-- The phases after newroot has been set up. -/
def switchSchedule : List (CStr × Bool) := ("net-ifdown hook".toList, true) :: leaveSchedule

/-- What a part of the boot process with a schedule emits. -/
structure BootLog (mask : BitVec 32) (items : List (CStr × Bool)) (stop : Option Stop)
    (es : List BootEvent) : Prop where
  begun : ∃ descs, Follows items descs ∧ begun es <+: descs
  complete : (∀ code, stop ≠ some (.ret code)) → Follows items (Fischstaebchen.begun es)
  answered : FailuresAnswered mask stop es
  told : RetryTold es
  shells : ∀ ret reason rc, .shell ret reason rc ∈ es →
    mask &&& initramfsDoshellOnerror ≠ 0#32 ∨ reason = some "preswitch shell".toList

variable {mask : BitVec 32} {items items' : List (CStr × Bool)} {stop : Option Stop}
  {es es' : List BootEvent}

theorem BootLog.append (h : BootLog mask items none es) (h' : BootLog mask items' stop es') :
    BootLog mask (items ++ items') stop (es ++ es') where
  begun := by
    obtain ⟨descs', hdescs', hprefix⟩ := h'.begun
    refine ⟨_, (h.complete (by simp)).append hdescs', ?_⟩
    rw [begun_append]
    exact List.prefix_append_right_inj _ |>.2 hprefix
  complete hstop := by
    rw [begun_append]
    exact (h.complete (by simp)).append (h'.complete hstop)
  answered := (composes_failuresAnswered mask).append h.answered h'.answered
  told := composes_retryTold.append (x := stop) h.told h'.told
  shells ret reason rc he := by
    rcases List.mem_append.1 he with he | he
    · exact h.shells ret reason rc he
    · exact h'.shells ret reason rc he

/-- A part that does not go on leaves the rest of the schedule out. -/
theorem BootLog.halt {code : ℤ} (h : BootLog mask items (some (.ret code)) es)
    (items' : List (CStr × Bool)) : BootLog mask (items ++ items') (some (.ret code)) es where
  begun := by
    obtain ⟨descs, hdescs, hprefix⟩ := h.begun
    exact ⟨_, hdescs.append (follows_all items'), hprefix.trans (List.prefix_append ..)⟩
  complete hstop := absurd rfl (hstop code)
  answered := h.answered
  told := h.told
  shells := h.shells

theorem BootLog.skip (h : BootLog mask items stop es) (desc : CStr) :
    BootLog mask ((desc, true) :: items) stop es where
  begun := by
    obtain ⟨descs, hdescs, hprefix⟩ := h.begun
    exact ⟨descs, .skip hdescs, hprefix⟩
  complete hstop := .skip (h.complete hstop)
  answered := h.answered
  told := h.told
  shells := h.shells

/-- Events of no phase. -/
theorem bootLog_of_inner {haveNet : Option CStr} {Q : Stop → Prop}
    (h : InnerEvents mask haveNet Q stop es) : BootLog mask [] stop es := by
  have hbegun : begun es = [] :=
    begun_eq_nil fun e he => BootEvent.begunPhase_of_inner (h.1.1 e he).2
  refine ⟨⟨[], .nil, hbegun ▸ List.prefix_rfl⟩, fun _ => hbegun ▸ .nil,
    failuresAnswered_of_inner fun e he => (h.1.1 e he).2, h.2, ?_⟩
  intro ret reason rc he
  exact (h.1.1 _ he).1

/-- The events of a phase. -/
theorem bootLog_of_settles {haveNet : Option CStr} {Q : Stop → Prop} {desc : CStr} (opt : Bool)
    (h : Settles mask haveNet Q stop es) :
    BootLog mask [(desc, opt)] stop (.begin (.phase desc) :: es) := by
  have hbegun : begun (.begin (.phase desc) :: es) = [desc] := by
    have hnil := begun_eq_nil fun e he => (h.2.2.1 e he).2
    show desc :: begun es = [desc]
    rw [hnil]
  have hbegin : RetryTold [.begin (.phase desc)] := retryTold_of_noHook (by simp) (by simp)
  refine ⟨⟨[desc], .run .nil, hbegun ▸ List.prefix_rfl⟩, fun _ => hbegun ▸ .run .nil, ?_,
    composes_retryTold.append (x := stop) hbegin h.2.1, ?_⟩
  · have hnone : FailuresAnswered mask none [.begin (.phase desc)] := by
      intro desc' ret pre post hsplit
      rcases List.singleton_eq_append_iff.1 hsplit with ⟨-, hend⟩ | ⟨-, hend⟩
      · exact absurd (List.cons.inj hend).1 (by simp)
      · exact absurd hend (by simp)
    exact (composes_failuresAnswered mask).append hnone h.1
  · intro ret reason rc he
    rcases List.mem_cons.1 he with he | he
    · cases he
    · exact (h.2.2.1 _ he).1

/-! ## Parts of the boot process -/

section
variable {σ α β : Type}

/-- The shell mask of a state. -/
def HasMask (mask : BitVec 32) (st : BootState σ) : Prop := st.g.doshell = mask

/-- A part of the boot process with a schedule; it stops for no reason other than those with
    `Q`, unless it returns, and without on-error shells it ends.  If `N` holds, it keeps the
    state of the network and tells the hooks. -/
structure Boots (N : Prop) (Q : Stop → Prop) (m : Boot σ α) (items : List (CStr × Bool)) :
    Prop where
  emits : ∀ mask, m.Emits (HasMask mask) fun stop es =>
    BootLog mask items stop es ∧ ∀ x, stop = some x → (∃ code, x = .ret code) ∨ Q x
  ends : ∀ mask, mask &&& initramfsDoshellOnerror = 0#32 → m.Ends (HasMask mask)
  tells : N → ∀ mask net haveNet, m.Emits (Fixed mask net haveNet) fun _ es =>
    ∀ e ∈ es, e.Allowed mask haveNet

variable {N : Prop} {Q : Stop → Prop}

/-- What a function within a phase emits, whatever the state of the network is. -/
theorem emits_of_fixed {m : Boot σ α} {mask : BitVec 32}
    {K : Option Stop → List BootEvent → Prop}
    (h : ∀ net haveNet, m.Emits (Fixed mask net haveNet) K) : m.Emits (HasMask mask) K := by
  intro n st r hst hrun
  obtain ⟨hst', hK⟩ := h st.haveNetwork (st.env "HAVE_NET") n st r ⟨hst, rfl, rfl⟩ hrun
  exact ⟨hst'.doshell, hK⟩

theorem ends_of_fixed {m : Boot σ α} {mask : BitVec 32}
    (h : ∀ net haveNet, m.Ends (Fixed mask net haveNet)) : m.Ends (HasMask mask) :=
  fun st hst => h st.haveNetwork (st.env "HAVE_NET") st ⟨hst, rfl, rfl⟩

/-- **One part after the other.** -/
theorem boots_bind {m : Boot σ α} {f : α → Boot σ β} {items items' : List (CStr × Bool)}
    (hm : Boots N (fun _ => False) m items) (hf : ∀ a, Boots N Q (f a) items') :
    Boots N Q (m >>= f) (items ++ items') where
  emits mask := by
    refine (Prog.logs_bind (hm.emits mask) fun a => (hf a).emits mask).imp fun res es h => ?_
    cases h with
    | goOn hm hf => exact ⟨hm.1.append hf.1, hf.2⟩
    | @stop x es hm =>
      obtain ⟨code, rfl⟩ | hfalse := hm.2 x rfl
      · exact ⟨hm.1.halt items', fun y hy => .inl ⟨code, (Option.some.inj hy).symm⟩⟩
      · cases hfalse
  ends mask hmask := Prog.ends_bind (hm.ends mask hmask) (hm.emits mask) fun a =>
    (hf a).ends mask hmask
  tells hN mask net haveNet := Prog.emits_bind (Prog.composes_forall _)
    (hm.tells hN mask net haveNet) fun a => (hf a).tells hN mask net haveNet

theorem boots_cons {m : Boot σ α} {f : α → Boot σ β} {item : CStr × Bool}
    {items : List (CStr × Bool)} (hm : Boots N (fun _ => False) m [item])
    (hf : ∀ a, Boots N Q (f a) items) : Boots N Q (m >>= f) (item :: items) := boots_bind hm hf

theorem boots_silent {m : Boot σ α} {f : α → Boot σ β} {items : List (CStr × Bool)}
    (hm : Boots N (fun _ => False) m []) (hf : ∀ a, Boots N Q (f a) items) :
    Boots N Q (m >>= f) items := boots_bind hm hf

/-- A value at the end. -/
theorem boots_last {m : Boot σ α} {items : List (CStr × Bool)} (hm : Boots N Q m items) (b : β) :
    Boots N Q (m >>= fun _ => pure b) items where
  emits mask := by
    have hb : ∀ a : α, (pure b : Boot σ β).Logs (HasMask mask) fun res es => res = .ok b ∧ es = [] :=
      fun _ => Prog.logs_pure ⟨rfl, rfl⟩
    refine (Prog.logs_bind (hm.emits mask) hb).imp fun res es h => ?_
    cases h with
    | goOn hm hb =>
      rw [hb.1, hb.2, List.append_nil]
      exact hm
    | stop hm => exact hm
  ends mask hmask := Prog.ends_bind (hm.ends mask hmask) (hm.emits mask) fun _ => Prog.ends_pure b
  tells hN mask net haveNet := Prog.emits_bind (Prog.composes_forall _)
    (hm.tells hN mask net haveNet) fun _ => Prog.emits_pure (Prog.composes_forall _) b

/-- A function that is no phase. -/
theorem boots_inner {m : Boot σ α} (hm : Inner Q m) : Boots N Q m [] where
  emits mask := emits_of_fixed fun net haveNet => (hm.emits mask net haveNet).imp
    fun _ _ h => ⟨bootLog_of_inner h, fun x hx => .inr (h.1.2 x hx)⟩
  ends mask hmask := ends_of_fixed fun net haveNet => hm.ends mask net haveNet hmask
  tells _ mask net haveNet := (hm.emits mask net haveNet).imp
    fun _ _ h e he => (h.1.1 e he).1

/-- A phase that is left out. -/
theorem boots_skip {m : Boot σ α} {desc : CStr} (hm : Boots N Q m []) : Boots N Q m [(desc, true)] where
  emits mask := (hm.emits mask).imp fun _ _ h => ⟨h.1.skip desc, h.2⟩
  ends := hm.ends
  tells := hm.tells

/-- A step that keeps the shell mask. -/
theorem boots_step {f : BootState σ → α × BootState σ}
    (h : ∀ st, (f st).2.g.doshell = st.g.doshell) : Boots False Q (Prog.step f : Boot σ α) [] where
  emits mask := Prog.logs_step fun st hst =>
    ⟨(h st).trans hst, bootLog_of_inner (composes_innerEvents mask none Q).nil,
      by intro x hx; cases hx⟩
  ends _ _ := Prog.ends_step f
  tells := False.elim

/-- Looking at the state. -/
theorem boots_look (f : BootState σ → α) :
    Boots N Q (Prog.step fun st => (f st, st) : Boot σ α) [] :=
  boots_inner (inner_step (fun _ => rfl) (fun _ => rfl) fun _ => rfl)

variable (S : BootParts σ) (host : Host)

/-- **A phase.** -/
theorem boots_irun {act : Boot σ ℤ} (hact : Inner Q act) (desc : String) (opt : Bool) :
    Boots N Q (irun S desc act) [(desc.toList, opt)] where
  emits mask := emits_of_fixed fun net haveNet =>
    (latch_settles S.toBootSystem hact desc.toList mask net haveNet).imp fun _ _ h => by
      obtain ⟨es', hes, hsettles⟩ := h
      rw [hes]
      exact ⟨bootLog_of_settles opt hsettles, hsettles.2.2.2⟩
  ends mask hmask := ends_of_fixed fun net haveNet =>
    latch_ends S.toBootSystem hact desc.toList mask net haveNet hmask
  tells _ mask net haveNet :=
    (latch_settles S.toBootSystem hact desc.toList mask net haveNet).imp fun _ _ h e he => by
      obtain ⟨es', hes, hsettles⟩ := h
      rw [hes] at he
      rcases List.mem_cons.1 he with rfl | he
      · exact trivial
      · exact (hsettles.2.2.1 e he).1

/-- The hook of a phase. -/
theorem boots_hook {phase desc : String} (hphase : phase.toList ∉ shellReasons)
    (hdesc : phase ++ " hook" = desc) (opt : Bool) :
    Boots N Q (irunCriticalHook S phase) [(desc.toList, opt)] := by
  rw [← hdesc]
  exact boots_irun S (inner_bind (inner_runHook _ hphase true) fun _ => inner_pure _) _ opt

/-- A builtin that may be disabled. -/
theorem boots_builtin {act : Boot σ ℤ} (hact : Inner Q act) (flags : List String)
    (desc builtin : String) :
    Boots N Q (irunBuiltin S flags desc builtin act) [(desc.toList, true)] := by
  refine boots_silent (boots_look _) fun enabled => ?_
  split_ifs
  · exact boots_irun S hact desc true
  · exact boots_skip (boots_inner
      (inner_emit (fun _ _ => trivial) id (retryTold_of_noHook (by simp) (by simp))))

/-- The early attempt to load the modules is no phase. -/
theorem boots_loadModulesEarly : Boots N Q (loadModulesEarly S) [] := by
  refine boots_silent (boots_look _) fun st => ?_
  split_ifs
  · exact boots_inner (inner_bind (inner_loadModules S _) fun ret => inner_pure _)
  · exact boots_inner (inner_pure false)

theorem boots_loadModulesLate (didLoadModules : Bool) :
    Boots N Q (loadModulesLate S didLoadModules) [("load modules".toList, true)] := by
  refine boots_silent (boots_look _) fun modules => ?_
  split_ifs
  · exact boots_irun S (inner_loadModules S modules) _ true
  · exact boots_skip (boots_inner (inner_pure ()))

theorem boots_netIfup : Boots False Q (netIfup S) [] :=
  boots_silent (boots_inner (inner_runHook _ (by simp [shellReasons]) true)) fun _ =>
    boots_step fun _ => rfl

theorem boots_netIfdown :
    Boots False (fun _ => False) (netIfdown S) [("net-ifdown hook".toList, true)] := by
  refine boots_silent (boots_look _) fun haveNetwork => ?_
  split_ifs
  · exact boots_bind (boots_hook S (by simp [shellReasons]) (by simp) true) fun _ =>
      boots_step fun _ => rfl
  · exact boots_skip (boots_inner (inner_pure ()))

/-- **The phases up to the network.** -/
theorem boots_setup : Boots False (fun _ => False) (mainBootSetup S host) setupSchedule := by
  unfold setupSchedule
  exact boots_cons (boots_irun S (inner_initRundir S) _ _) fun _ =>
    boots_silent (boots_step fun _ => rfl) fun _ =>
    boots_cons (boots_hook S (by simp [shellReasons]) (by simp) _) fun _ =>
    boots_cons (boots_hook S (by simp [shellReasons]) (by simp) _) fun _ =>
    boots_cons (boots_hook S (by simp [shellReasons]) (by simp) _) fun _ =>
    boots_silent (boots_loadModulesEarly S) fun didLoadModules =>
    boots_cons (boots_hook S (by simp [shellReasons]) (by simp) _) fun _ =>
    boots_cons (boots_irun S (inner_waitforDiskDevices S) _ _) fun _ =>
    boots_cons (boots_hook S (by simp [shellReasons]) (by simp) _) fun _ =>
    boots_inner (inner_pure didLoadModules)

/-- **The phases that set up newroot.** -/
theorem boots_newroot (didLoadModules : Bool) :
    Boots N (fun _ => False) (mainBootNewroot S didLoadModules) newrootSchedule := by
  unfold newrootSchedule
  refine boots_cons (boots_hook S (by simp [shellReasons]) (by simp) _) fun _ =>
    boots_cons (boots_loadModulesLate S didLoadModules) fun _ =>
    boots_cons (boots_irun S (inner_premountByName S _ _) _ _) fun _ =>
    boots_cons (boots_hook S (by simp [shellReasons]) (by simp) _) fun _ =>
    boots_cons (boots_irun S (inner_premountByName S _ _) _ _) fun _ =>
    boots_cons (boots_builtin S (inner_mountNewrootRoot S) _ _ _) fun _ =>
    boots_cons (boots_hook S (by simp [shellReasons]) (by simp) _) fun _ =>
    boots_cons (boots_builtin S (inner_mountNewrootUsr S) _ _ _) fun _ =>
    boots_cons (boots_irun S (inner_premountByName S _ _) _ _) fun _ =>
    boots_cons (boots_hook S (by simp [shellReasons]) (by simp) _) fun _ =>
    boots_cons (boots_irun S (inner_premountByName S _ _) _ _) fun _ =>
    boots_cons (boots_hook S (by simp [shellReasons]) (by simp) _) fun _ =>
    boots_cons (boots_irun S (inner_premountByName S _ _) _ _) fun _ => ?_
  refine boots_cons (boots_hook S (by simp [shellReasons]) (by simp) _) fun _ =>
    boots_cons (boots_irun S (inner_sysCall _) _ _) fun _ =>
    boots_cons (boots_builtin S (inner_newrootPremount S) _ _ _) fun _ =>
    boots_cons (boots_builtin S (inner_mountNewrootTmpdir S) _ _ _) fun _ =>
    boots_cons (boots_builtin S (inner_setupNewrootTmpdir S) _ _ _) fun _ =>
    boots_cons (boots_hook S (by simp [shellReasons]) (by simp) _) fun _ =>
    boots_hook S (by simp [shellReasons]) (by simp) _

/-- **The phases that leave the initramfs.** -/
theorem boots_leave :
    Boots N Stop.SwitchesRoot (mainBootLeave S) leaveSchedule := by
  unfold leaveSchedule
  exact boots_cons (boots_irun S (inner_preswitchShell _) _ _) fun _ =>
    boots_cons (boots_irun S (inner_overrideInitProg S _) _ _) fun _ =>
    boots_last (boots_irun S (inner_switchRoot S) _ _) 0

theorem boots_switch :
    Boots False Stop.SwitchesRoot (mainBootSwitch S) switchSchedule :=
  boots_silent (boots_inner (inner_ejectAuxMounts S)) fun _ =>
    boots_cons (boots_netIfdown S) fun _ => boots_leave S

/-- The phases of the boot process. -/
def bootSchedule : List (CStr × Bool) := setupSchedule ++ newrootSchedule ++ switchSchedule

/-- **The boot process.** -/
theorem boots_mainBoot :
    Boots False Stop.SwitchesRoot (mainBoot S host) bootSchedule := by
  unfold bootSchedule
  rw [List.append_assoc]
  exact boots_bind (boots_setup S host) fun didLoadModules =>
    boots_silent (boots_netIfup S) fun _ =>
    boots_bind (boots_newroot S didLoadModules) fun _ => boots_switch S

end

/-! ## A bare system -/

/-- Mounts that succeed. -/
def bareMounts : MountCalls Unit where
  stdmount _ _ _ _ _ _ := (0, ())
  bindMount _ _ _ := (0, ())
  mountMove _ _ _ := (0, ())
  doUmount _ _ := (0, ())

/-- A system without files, but maybe with hooks, where all children exit with the same code;
    nothing else fails. -/
def bareParts (hooks : Bool) (code : UInt8) : BootParts Unit where
  fileExists _ _ := false
  executable _ _ := hooks
  lexists _ _ := true
  child _ _ _ _ := (.terminated (.exited code), ())
  execvp _ _ := true
  nextFreeIdentifier _ := none
  makedirs _ _ := (0, ())
  writeColors _ _ := ()
  untilSuccess _ _ _ _ _ _ := (0, ())
  readFstab _ _ := none
  mountThatEntry _ _ _ _ _ := (0, ())
  domount _ _ _ := (0, ())
  mounts := bareMounts
  umountAllIn _ _ := (0, ())
  umountRecursive _ _ := (0, ())
  unregisterMdev _ := ()
  closeLogfile _ := ()
  createUserTmpdirs _ _ _ := (0, ())
  readSysfsFile _ _ := (0, none)

def bareHost : Host := ⟨1, none, none⟩

/-- A state without anything configured but the shell mask. -/
def bareState (doshell : BitVec 32) : BootState Unit where
  g := { initramfsGlobalsInit bareHost with doshell }
  shell := []
  rootfindDevices := []
  haveNetwork := 0
  env := fun _ => none
  premount := ⟨0#32, [], ()⟩

/-- Without hooks the bare system switches to newroot. -/
theorem bareParts_switches :
    ∃ r, (mainBoot (bareParts false 0) bareHost).run 1 (bareState 0#32) = some r ∧
      r.res = .error (.exec (switchRootArgv "/sbin/init".toList)) := ⟨_, rfl, rfl⟩

/-! ## The whole boot process -/

section
variable {σ α β : Type} {N : Prop} {Q : Stop → Prop} {S : BootParts σ} {host : Host} {n : ℕ}
  {st : BootState σ} {r : Run BootEvent Stop (BootState σ) ℤ}

/-- **Hooks are told** that they are run again exactly if a shell for their phase has returned
    0 just before. -/
theorem mainBoot_hooks (h : (mainBoot S host).run n st = some r) {phase hookFile : CStr}
    {env : Environ} {result : ChildResult} {pre post : List BootEvent}
    (hhook : r.events = pre ++ .hook phase hookFile env result :: post) :
    env "RETRY" = some shellStrTrue ↔ ∃ pre' ret, pre = pre' ++ [.shell ret (some phase) 0] :=
  ((((boots_mainBoot S host).emits st.g.doshell) n st r rfl h).2.1.told.1 pre phase hookFile env
    result post hhook).2

theorem mainBoot_hooks_bare :
    ∃ r pre phase hookFile env result post,
      (mainBoot (bareParts true 1) bareHost).run 1 (bareState 0#32) = some r ∧
        r.events = pre ++ .hook phase hookFile env result :: post ∧
          (env "RETRY" = some shellStrTrue ↔
            ∃ pre' ret, pre = pre' ++ [.shell ret (some phase) 0]) := by
  obtain ⟨r, pre, phase, hookFile, env, result, post, hrun, hhook⟩ :
      ∃ r pre phase hookFile env result post,
        (mainBoot (bareParts true 1) bareHost).run 1 (bareState 0#32) = some r ∧
          r.events = pre ++ .hook phase hookFile env result :: post :=
    ⟨_, [_, _], _, _, _, _, _, rfl, rfl⟩
  exact ⟨r, pre, phase, hookFile, env, result, post, hrun, hhook, mainBoot_hooks hrun hhook⟩

/-- **Without on-error shells** the boot process ends, and it does so at the first failure of a
    phase; no shell is run but the one before newroot is switched to. -/
theorem mainBoot_ends (hmask : st.g.doshell &&& initramfsDoshellOnerror = 0#32) :
    ∃ n r, (mainBoot S host).run n st = some r ∧
      (∀ ret reason rc, .shell ret reason rc ∈ r.events →
        reason = some "preswitch shell".toList) ∧
      ∀ desc ret pre post, r.events = pre ++ .failed (.phase desc) ret :: post →
        r.res = .error (.ret (-1)) ∧ post = [.bootFail (.phase desc)] := by
  obtain ⟨n, r, hrun⟩ := (boots_mainBoot S host).ends st.g.doshell hmask st rfl
  have hlog := (((boots_mainBoot S host).emits st.g.doshell) n st r rfl hrun).2.1
  refine ⟨n, r, hrun, fun ret reason rc he => ?_, fun desc ret pre post hfailed => ?_⟩
  · exact (hlog.shells ret reason rc he).resolve_left fun h => h hmask
  · have hanswered := hlog.answered desc ret pre post hfailed
    rw [Answered, if_pos hmask] at hanswered
    refine ⟨?_, hanswered.2⟩
    cases hres : r.res with
    | ok a =>
      rw [hres] at hanswered
      cases hanswered.1
    | error x =>
      rw [hres] at hanswered
      rw [Option.some.inj hanswered.1]

theorem mainBoot_ends_bare :
    ∃ n r, (mainBoot (bareParts true 1) bareHost).run n (bareState 0#32) = some r ∧
      ∀ desc ret pre post, r.events = pre ++ .failed (.phase desc) ret :: post →
        r.res = .error (.ret (-1)) ∧ post = [.bootFail (.phase desc)] := by
  have hmask : (bareState 0#32).g.doshell &&& initramfsDoshellOnerror = 0#32 := rfl
  obtain ⟨n, r, hrun, -, hfirst⟩ :=
    @mainBoot_ends Unit (bareParts true 1) bareHost (bareState 0#32) hmask
  exact ⟨n, r, hrun, hfirst⟩

/-! ## The network -/

/-- What is exported as `HAVE_NET`. -/
def haveNetStr (net : Bool) : CStr := if net then shellStrTrue else shellStrFalse

/-- What a program emits before it is replaced by another one. -/
theorem run_bind_exec {m : Boot σ α} {f : α → Boot σ β} {items : List (CStr × Bool)}
    (hm : Boots N (fun _ => False) m items) {argv : List CStr} {r : Run BootEvent Stop (BootState σ) β}
    (h : (m >>= f).run n st = some r) (hexec : r.res = .error (.exec argv)) :
    ∃ r₁ a r₂, m.run n st = some r₁ ∧ r₁.res = .ok a ∧ (f a).run n r₁.state = some r₂ ∧
      r₂.res = .error (.exec argv) ∧ r.events = r₁.events ++ r₂.events ∧ r.state = r₂.state := by
  obtain ⟨r₁, hrun, ⟨a, r₂, hres, hrun', rfl⟩ | ⟨x, hres, rfl⟩⟩ := Prog.run_bind h
  · exact ⟨r₁, a, r₂, hrun, hres, hrun', hexec, rfl, rfl⟩
  · have hstop := ((hm.emits st.g.doshell) n st r₁ rfl hrun).2.2 x (by rw [hres]; rfl)
    obtain ⟨code, rfl⟩ | hfalse := hstop
    · cases hexec
    · cases hfalse

/-- What a part of the boot process that goes on emits. -/
theorem Boots.follows {m : Boot σ α} {items : List (CStr × Bool)} (hm : Boots N Q m items) {a : α}
    {r : Run BootEvent Stop (BootState σ) α} (h : m.run n st = some r) (hres : r.res = .ok a) :
    Follows items (begun r.events) := by
  refine ((hm.emits st.g.doshell) n st r rfl h).2.1.complete fun code => ?_
  rw [hres]
  simp [Prog.stopped]

/-- **Setting up the network**: it is up only if the hook has passed, and this is exported. -/
theorem netIfup_run {r : Run BootEvent Stop (BootState σ) Unit} {u : Unit}
    (h : (netIfup S).run n st = some r) (hres : r.res = .ok u) :
    ∃ net : Bool, r.state.haveNetwork = (if net then 1 else 0) ∧
      r.state.env "HAVE_NET" = some (haveNetStr net) ∧
        (net = true → PassedHook "net-ifup".toList r.events) := by
  obtain ⟨r₁, hhook, ⟨⟨ret, found⟩, r₂, hres₁, hstep, rfl⟩ | ⟨x, -, rfl⟩⟩ := Prog.run_bind h
  · have hst : Fixed st.g.doshell st.haveNetwork (st.env "HAVE_NET") st := ⟨rfl, rfl, rfl⟩
    obtain ⟨-, hpassed⟩ := runHook_logs S.toBootSystem "net-ifup".toList st.haveNetwork n st r₁
      hst hhook
    rw [Prog.run_step, Option.some.injEq] at hstep
    subst hstep
    refine ⟨netIsUp S (ret, found) r₁.state.sys, rfl, ?_, fun hup => ?_⟩
    · show exportEnvShbool "HAVE_NET" _ r₁.state.env "HAVE_NET" = _
      rw [exportEnvShbool, exportEnv_self]
      cases netIsUp S (ret, found) r₁.state.sys <;> rfl
    · simp only [netIsUp, Bool.and_eq_true, decide_eq_true_eq] at hup
      obtain ⟨rfl, rfl, -⟩ := hup
      obtain ⟨hfalse, -⟩ | hpassed := hpassed true hres₁
      · cases hfalse
      · rw [Run.after_events, List.append_nil]
        exact hpassed
  · cases hres

/-- **Shutting down the network**: the hook is run exactly if it is up. -/
theorem netIfdown_run {net : Bool} {mask : BitVec 32}
    (hst : Fixed mask (if net then 1 else 0) (some (haveNetStr net)) st)
    {r : Run BootEvent Stop (BootState σ) Unit} {u : Unit}
    (h : (netIfdown S).run n st = some r) (hres : r.res = .ok u) :
    Fixed mask 0 (some (haveNetStr false)) r.state ∧
      (∀ e ∈ r.events, e.Allowed mask (some (haveNetStr net))) ∧
        begun r.events = if net then ["net-ifdown hook".toList] else [] := by
  unfold netIfdown at h
  rw [Prog.run_step_bind] at h
  dsimp only at h
  rw [hst.haveNetwork] at h
  cases net with
  | false =>
    rw [if_neg (by simp), Prog.run_pure, Option.some.injEq] at h
    rw [← h]
    exact ⟨hst, by simp, rfl⟩
  | true =>
    rw [if_pos (by simp)] at h
    have hboots : Boots True (fun _ => False) (irunCriticalHook S "net-ifdown")
        [("net-ifdown hook".toList, false)] :=
      boots_hook S (by simp [shellReasons]) (by simp) false
    obtain ⟨r₁, hhook, ⟨u', r₂, hres₁, hstep, rfl⟩ | ⟨x, -, rfl⟩⟩ := Prog.run_bind h
    · obtain ⟨hst₁, hallowed⟩ := hboots.tells trivial mask _ _ n st r₁ hst hhook
      have hfollows := hboots.follows hhook hres₁
      rw [Prog.run_step, Option.some.injEq] at hstep
      subst hstep
      refine ⟨⟨hst₁.doshell, rfl, ?_⟩, ?_, ?_⟩
      · show exportEnvShbool "HAVE_NET" 0 r₁.state.env "HAVE_NET" = _
        rw [exportEnvShbool, exportEnv_self]
        rfl
      · simpa [Run.after] using hallowed
      · rw [Run.after_events, List.append_nil, if_pos rfl]
        exact hfollows.eq_singleton
    · cases hres

end

end Fischstaebchen
