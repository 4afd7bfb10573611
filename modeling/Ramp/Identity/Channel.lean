import Ramp.Identity.Revocation
import Ramp.Identity.Serving

/-! The channel of revocations. Whatever list a request returned, every source that a later
request can reach is no older: the live entry, the build in progress and the table. -/

namespace Ramp.Identity

open Function (update update_of_ne update_self)

open Prog

variable {n : ℤ}

namespace RevocationList

/-- A list that may be published after another: the counter does not go back, no
revocation is lost, and one counter means one list. -/
structure Precedes (l l' : RevocationList) : Prop where
  asOf : l.asOf ≤ l'.asOf
  revoked : l.revoked ⊆ l'.revoked
  same : l.asOf = l'.asOf → l.revoked = l'.revoked

theorem Precedes.refl (l : RevocationList) : l.Precedes l :=
  ⟨le_refl _, List.Subset.refl _, fun _ => rfl⟩

theorem Precedes.trans {l l' l'' : RevocationList} (h : l.Precedes l') (h' : l'.Precedes l'') :
    l.Precedes l'' := by
  refine ⟨h.asOf.trans h'.asOf, List.Subset.trans h.revoked h'.revoked, fun he => ?_⟩
  have hle := h.asOf
  have hle' := h'.asOf
  exact (h.same (by omega)).trans (h'.same (by omega))

theorem Precedes.of_lt {l l' : RevocationList} (hlt : l.asOf < l'.asOf)
    (hsub : l.revoked ⊆ l'.revoked) : l.Precedes l' :=
  ⟨hlt.le, hsub, fun he => absurd he hlt.ne⟩

theorem asOf_lt_revoke (row : Option RevocationList) (thumbprint : String) (hn : 0 < n) :
    (row.getD .baseline).asOf < (revoke row thumbprint n).asOf := by
  cases row with
  | none => exact hn
  | some row =>
    change row.asOf < max (row.asOf + 1) n
    omega

theorem revoked_subset_revoke (row : Option RevocationList) (thumbprint : String) (n : ℤ) :
    (row.getD .baseline).revoked ⊆ (revoke row thumbprint n).revoked := by
  cases row with
  | none => exact List.nil_subset _
  | some row =>
    change row.revoked ⊆ if thumbprint ∈ row.revoked then row.revoked
      else row.revoked ++ [thumbprint]
    split_ifs
    · exact List.Subset.refl _
    · exact List.subset_append_left _ _

end RevocationList

/-- Time goes on, and keys, accounts and cards change elsewhere; the cache of the process
and the revocations do not. -/
def Proceeds (s t : State) : Prop :=
  s.now ≤ t.now ∧ t.cache = s.cache ∧ t.tables.revocations = s.tables.revocations

def clockReading : Event Call Reply → Option ℤ
  | ⟨.unixNano, n⟩ => some n
  | _ => none

def Timely {ι : Type} (tr : Trace Call Reply ι) : Prop :=
  ∀ x ∈ tr, ∀ n ∈ clockReading x.2, 0 < n

instance {ι : Type} (tr : Trace Call Reply ι) : Decidable (Timely tr) :=
  inferInstanceAs (Decidable (∀ _ ∈ _, ∀ _ ∈ _, _))

variable {op : Call} {thumbprint : String}

variable {s t : State} {name : String} {ι : Type}

variable {tasks : ι → PublishTask} {tr : Trace Call Reply ι}

section

theorem Proceeds.list (h : Proceeds s t) (name : String) : t.list name = s.list name := by
  rw [State.list, State.list, Tables.rowOf, Tables.rowOf, h.2.2]

theorem Tables.Effect.rowOf {s t : Tables} {c : TableCall} (h : s.Effect c t) (name : String) :
    t.rowOf name = s.rowOf name ∨ ∃ thumbprint n, c = .revoke name thumbprint n ∧
      t.rowOf name = some (RevocationList.revoke (s.rowOf name) thumbprint n) := by
  cases h with
  | none | reserved | upserted => exact .inl rfl
  | revoked sub thumbprint n =>
    by_cases hname : name = sub
    · subst hname
      exact .inr ⟨thumbprint, n, rfl, by simp [Tables.rowOf, Tables.revoked, Table.get?_insert]⟩
    · exact .inl (by simp [Tables.rowOf, Tables.revoked, Table.get?_insert, hname])

theorem step_list {r : Reply op} (h : step op s r = some t) (name : String) :
    t.list name = s.list name ∨ ∃ thumbprint n, op = .table (.revoke name thumbprint n) ∧
      t.list name = RevocationList.revoke (s.tables.rowOf name) thumbprint n := by
  rcases (step_effects h).2 with ⟨c, rfl, heff⟩ | ht
  · rcases heff.rowOf name with hrow | ⟨thumbprint, n, rfl, hrow⟩
    · exact .inl (by rw [State.list, State.list, hrow])
    · exact .inr ⟨thumbprint, n, rfl, by rw [State.list, hrow, Option.getD_some]⟩
  · exact .inl (by rw [State.list, State.list, ht])

theorem step_revoke {w : Reply (.table (.revoke name thumbprint n))}
    (h : step (.table (.revoke name thumbprint n)) s w = some t)
    (hw : Written.applied (w : Written PgFault ℤ) = true) :
    t.list name = RevocationList.revoke (s.tables.rowOf name) thumbprint n := by
  have ht := (step_table h).1
  simp only [Tables.step, Tables.revokeStep, hw, if_true, Option.ite_none_right_eq_some,
    Option.some.injEq] at ht
  rw [State.list, ← ht.2]
  simp [Tables.rowOf, Tables.revoked, Table.get?_insert]

variable [DecidableEq ι] {i : ι}

theorem PublishTask.revoke_pos (ht : Timely tr)
    (hg : (tasks i).Guard (tr.own i) (.table (.revoke name thumbprint n))) : 0 < n := by
  cases htask : tasks i with
  | request sub =>
    rw [htask] at hg
    exact hg.elim
  | invalidate sub =>
    rw [htask] at hg
    rcases hg with ⟨-, hop⟩ | ⟨-, hop⟩ | ⟨-, hop⟩ <;> cases hop
  | revoke sub thumbprint' =>
    rw [htask] at hg
    exact ht _ (Trace.mem_own.mp (hg.2 _ _ _ rfl)) n rfl

theorem list_precedes {r : Reply op} (ht : Timely tr) (hg : (tasks i).Guard (tr.own i) op)
    (hstep : step op s r = some t) : (s.list name).Precedes (t.list name) := by
  rcases step_list hstep name with hsame | ⟨thumbprint, n, rfl, hlist⟩
  · rw [hsame]
    exact .refl _
  · have hn := PublishTask.revoke_pos ht hg
    rw [hlist]
    exact .of_lt (RevocationList.asOf_lt_revoke _ _ hn) (RevocationList.revoked_subset_revoke _ _ _)

end

/-! While a build is in progress no live entry appears but its own. -/

def Stage.Dark (entry : Option Entry) (now : ℤ) (list : RevocationList) : Stage → Prop
  | looked _ e => ∀ e', entry = some e' → e' = e
  | cold _ => ∀ e, entry = some e → e.expires ≤ now
  | building _ _ l =>
    (∀ e, entry = some e → e.expires ≤ now) ∧ ∀ l', l = some l' → l'.Precedes list
  | start | peeked _ | missed | served _ | joined _ | answered _ | leading _ | found _ _
  | stored _ _ | left _ _ => True

section

variable {entry entry' : Option Entry} {now now' : ℤ} {list list' : RevocationList} {st st' : Stage}
  {c c' : Cache}

theorem Stage.dark_of_not_leads (h : st.leads = none) : st.Dark entry now list := by
  cases st <;> trivial

theorem Stage.Dark.mono (h : st.Dark entry now list)
    (hentry : ∀ e, entry' = some e → entry = some e) (hnow : now ≤ now')
    (hlist : list.Precedes list') : st.Dark entry' now' list' := by
  cases st with
  | looked f e => exact fun e' he => h e' (hentry e' he)
  | cold f => exact fun e he => (h e (hentry e he)).trans hnow
  | building f gen l =>
    exact ⟨fun e he => (h.1 e (hentry e he)).trans hnow, fun l' hl => (h.2 l' hl).trans hlist⟩
  | _ =>
    trivial

theorem Acts.dark (ha : Acts name now list c st c' st') (h : st.Dark (c.positive name) now list) :
    st'.Dark (c'.positive name) now list := by
  cases ha with
  | idle => exact h
  | lookNothing f there =>
    intro e he
    rw [there] at he
    cases he
  | look f e there =>
    intro e' he
    rw [there] at he
    exact (Option.some.inj he).symm
  | chill f e stale =>
    intro e' he
    rw [h e' he]
    exact stale
  | findNothing _ f forgets => exact fun e he => h e (forgets.drops.positive_of he)
  | readGen f => exact ⟨h, by simp⟩
  | readList f gen =>
    refine ⟨h.1, ?_⟩
    rintro _ ⟨⟩
    exact .refl _
  | nothing | peek | stale | hit | unknown | absent | lead | join | answer | find | findAbsent
  | store | leave => trivial

end

variable {f gen : ℕ}

section

variable [DecidableEq ι] {old new : ι → Stage} {New : ι → Prop} {l : RevocationList}

def AllDark (tasks : ι → PublishTask) (name : String) (stages : ι → Stage) (s : State) : Prop :=
  ∀ i, tasks i = .request name → (stages i).Dark (s.cache.positive name) s.now (s.list name)

omit [DecidableEq ι] in
theorem Flying.alone {stages : ι → Stage} {c : Cache} (h : Flying tasks stages c) {i j : ι}
    (hi : tasks i = .request name) (hj : tasks j = .request name) (hl : (stages i).leads = some f)
    (hne : j ≠ i) : (stages j).leads = none := by
  cases hlj : (stages j).leads with
  | none => rfl
  | some g =>
    have hf := h.leads i name f hi hl
    rw [h.leads j name g hj hlj] at hf
    exact absurd (h.unique j i f (Option.some.inj hf ▸ hlj) hl) hne

theorem AllDark.moves (h : AllDark tasks name old s) (hfly : Flying tasks old s.cache)
    (hm : Moves tasks s t old new) (hnow : t.now = s.now)
    (hlist : (s.list name).Precedes (t.list name)) : AllDark tasks name new t := by
  cases hm with
  | drops drops =>
    exact fun i hi => (h i hi).mono (fun e => drops.positive_of) hnow.ge hlist
  | acts i other st task acts =>
    intro j hj
    by_cases hji : j = i
    · subst hji
      rw [task] at hj
      cases hj
      rw [update_self]
      exact (acts.dark (h j task)).mono (fun _ he => he) hnow.ge hlist
    · rw [update_of_ne hji]
      rcases acts.adds with hsame | ⟨f, gen, l, d, hb, -, -, hst⟩
      · exact (h j hj).mono (hsame.1 name) hnow.ge hlist
      · by_cases hname : name = other
        · subst hname
          exact Stage.dark_of_not_leads (hfly.alone task hj (by rw [hb]; rfl) hji)
        · refine (h j hj).mono (fun e he => ?_) hnow.ge hlist
          exact (hst.positive_or he).resolve_right fun hh => hname hh.1

/-- Documents whose list, if they have one, is no older than `l`. -/
def NoOlder (l : RevocationList) (d : DocSet) : Prop :=
  ∀ l', d.revocation = some l' → l.Precedes l'

structure Floor (l : RevocationList) (New : ι → Prop) (tasks : ι → PublishTask) (name : String)
    (stages : ι → Stage) (s : State) : Prop where
  serves : Serves (fun e => s.now < e.expires) (NoOlder l) 0 New tasks name stages s.cache
  table : l.Precedes (s.list name)
  read : ∀ i f gen l', tasks i = .request name → stages i = .building f gen (some l') →
    l.Precedes l'

theorem noOlder_none (l : RevocationList) (f : ℕ) : NoOlder l (.none f) := by
  rintro _ ⟨⟩

theorem Acts.read_or {other : String} {now : ℤ} {list : RevocationList} {c c' : Cache}
    {st st' : Stage} (ha : Acts other now list c st c' st') (h : st' = .building f gen (some l)) :
    st = .building f gen (some l) ∨ l = list := by
  cases ha with
  | idle => exact .inl h
  | readList =>
    cases h
    exact .inr rfl
  | _ => cases h

theorem Floor.moves (h : Floor l New tasks name old s) (hfly : Flying tasks old s.cache)
    (hm : Moves tasks s t old new) (hnow : t.now = s.now)
    (hlist : (s.list name).Precedes (t.list name)) : Floor l New tasks name new t := by
  refine ⟨?_, h.table.trans hlist, ?_⟩
  · rw [hnow]
    refine h.serves.moves hfly hm (fun _ he => he) (fun d _ _ => noOlder_none l _) ?_
    intro i f gen l' d hi hb _ _ hread _ _ row hrow
    rw [hread row hrow] at hb
    exact h.read i f gen row hi hb
  · cases hm with
    | drops drops => exact h.read
    | acts i other st task acts =>
      intro j f gen l' hj hb
      by_cases hji : j = i
      · subst hji
        rw [task] at hj
        cases hj
        rw [update_self] at hb
        rcases acts.read_or hb with hb | rfl
        · exact h.read j f gen l' task hb
        · exact h.table
      · rw [update_of_ne hji] at hb
        exact h.read j f gen l' hj hb

theorem Floor.of_stored {i : ι} {d : DocSet} (hdark : AllDark tasks name old s)
    (hfly : Flying tasks old s.cache) (hi : tasks i = .request name)
    (hb : old i = .building f gen (some l)) (hd : d.revocation = some l)
    (hst : s.cache.Stores name d gen t.cache) (hnow : t.now = s.now)
    (hlist : (s.list name).Precedes (t.list name)) :
    Floor l (fun _ => False) tasks name (update old i (.stored f d)) t := by
  have hi_dark := hdark i hi
  rw [hb] at hi_dark
  have hself : NoOlder l d := by
    intro l' hl'
    rw [hd] at hl'
    rw [← Option.some.inj hl']
    exact .refl l
  have halone : ∀ j, tasks j = .request name → j ≠ i → (old j).leads = none :=
    fun j hj hne => hfly.alone hi hj (by rw [hb]; rfl) hne
  refine ⟨⟨fun e he hl => ?_, fun a _ => noOlder_none l _, by simp, Nat.zero_le _,
    fun j hj => ?_⟩, (hi_dark.2 l rfl).trans hlist, fun j g gen' l' hj hbj => ?_⟩
  · rcases hst.positive_or he with hold | ⟨-, hdocs, -⟩
    · rw [hnow] at hl
      exact absurd hl (not_lt.mpr (hi_dark.1 e hold))
    · rw [hdocs]
      exact hself
  · by_cases hji : j = i
    · rw [hji, update_self]
      exact .of_holds hself (by simp)
    · rw [update_of_ne hji]
      refine ⟨fun g hg _ => ?_, False.elim, fun _ hn => hn.elim⟩
      rw [halone j hj hji] at hg
      cases hg
  · by_cases hji : j = i
    · rw [hji, update_self] at hbj
      cases hbj
    · rw [update_of_ne hji] at hbj
      have hnone := halone j hj hji
      rw [hbj] at hnone
      cases hnone

def Settled (tasks : ι → PublishTask) (name : String) (stages : ι → Stage) (s : State)
    (d : DocSet) : Prop :=
  ∀ l, d.revocation = some l → Floor l (fun _ => False) tasks name stages s

structure Channel (tasks : ι → PublishTask) (name : String) (stages : ι → Stage) (s : State) :
    Prop where
  dark : AllDark tasks name stages s
  settled : Serves (fun e => s.now < e.expires) (Settled tasks name stages s) 0 (fun _ => True)
    tasks name stages s.cache

theorem Channel.moves (h : Channel tasks name old s) (hfly : Flying tasks old s.cache)
    (hm : Moves tasks s t old new) (hnow : t.now = s.now)
    (hlist : (s.list name).Precedes (t.list name)) : Channel tasks name new t := by
  refine ⟨h.dark.moves hfly hm hnow hlist, ?_⟩
  have hmono : ∀ d, Settled tasks name old s d → Settled tasks name new t d :=
    fun d hd l hl => (hd l hl).moves hfly hm hnow hlist
  rw [hnow]
  refine (h.settled.mono hmono fun _ he => he).moves hfly hm (fun _ he => he) ?_ ?_
  · rintro d - - l ⟨⟩
  · intro i f gen l d hi hb hnew _ hread hst _ row hrow
    rw [hread row hrow] at hb
    rw [hnew]
    exact Floor.of_stored h.dark hfly hi hb hrow hst hnow hlist

omit [DecidableEq ι] in
theorem Floor.proceeds (h : Floor l New tasks name old s) (hp : Proceeds s t) :
    Floor l New tasks name old t := by
  refine ⟨?_, ?_, h.read⟩
  · rw [hp.2.1]
    exact h.serves.mono (fun _ hd => hd) fun _ he => lt_of_le_of_lt hp.1 he
  · rw [hp.list]
    exact h.table

omit [DecidableEq ι] in
theorem Channel.proceeds (h : Channel tasks name old s) (hp : Proceeds s t) :
    Channel tasks name old t := by
  refine ⟨fun i hi => ?_, ?_⟩
  · rw [hp.2.1, hp.list]
    exact (h.dark i hi).mono (fun _ he => he) hp.1 (.refl _)
  · rw [hp.2.1]
    refine h.settled.mono (fun d hd l hl => (hd l hl).proceeds hp) ?_
    exact fun _ he => lt_of_le_of_lt hp.1 he

omit [DecidableEq ι] in
theorem Channel.empty (hs : s.cache = .empty) : Channel tasks name (fun _ => .start) s := by
  refine ⟨fun _ _ => trivial, ⟨?_, ?_, ?_, Nat.zero_le _, fun _ _ => ?_⟩⟩
  · rw [hs]
    rintro e ⟨⟩
  · rw [hs]
    rintro a ⟨⟩
  · exact fun _ _ _ _ => Nat.zero_le _
  · exact .of_holds trivial (by simp)

variable {cfg : Publisher.Config} {tr' : Trace Call Reply ι}
  {c c' : Pool Call Reply State ι PublishOutcome}

omit [DecidableEq ι] in
theorem Timely.left (h : Timely (tr ++ tr')) : Timely tr :=
  fun x hx => h x (List.mem_append_left _ hx)

section

variable (hr : Run step Proceeds (publishPool cfg tasks s) tr c)
include hr

theorem publish_channel (hs : s.cache = .empty) (ht : Timely tr) :
    Channel tasks name (stages tr) c.shared := by
  have hinv := publish_invariant (fun tr s => Timely tr → Channel tasks name (stages tr) s)
    (.start (c := publishPool cfg tasks s)) hr hs (fun _ _ hp => hp.2.1)
    (fun _ => Channel.empty hs) ?_ fun tr s t h hp htr => (h htr).proceeds hp
  · exact hinv ht
  · intro tr s i op r t h hfly hg hstep hm htr
    exact (h htr.left).moves hfly hm (step_now hstep) (list_precedes htr.left hg hstep)

theorem publish_floor (hr' : Run step Proceeds c tr' c') (hs : s.cache = .empty)
    (ht : Timely (tr ++ tr')) (h : Floor l New tasks name (stages tr) c.shared) :
    Floor l New tasks name (stages (tr ++ tr')) c'.shared := by
  refine publish_invariant (fun tr s => Timely tr → Floor l New tasks name (stages tr) s) hr hr' hs
    (fun _ _ hp => hp.2.1) (fun _ => h) ?_ (fun tr s t h hp htr => (h htr).proceeds hp) ht
  intro tr s i op r t h hfly hg hstep hm htr
  exact (h htr.left).moves hfly hm (step_now hstep) (list_precedes htr.left hg hstep)

end

omit [DecidableEq ι] in
theorem pick_revocation {b : Built} (h : Publisher.pick .revocation b = .ok (.revocation l)) :
    ∃ d, b = .ok d ∧ d.revocation = some l := by
  cases b with
  | error e => cases h
  | ok d =>
    refine ⟨d, rfl, ?_⟩
    cases hd : d.revocation with
    | none => cases hu : d.revUnavail <;> simp [Publisher.pick, Publisher.select, hd, hu] at h
    | some l' =>
      simp only [Publisher.pick, Publisher.select, hd, Option.map_some] at h
      cases h
      rfl

/-- The channel of revocations is monotone. Any number of requests, invalidations and
revocations share a process that starts with an empty cache and whose clock does not go
back; the wall clock by which revocations are dated only reads positive. A list returned to
a request that began after another had returned one is no older, and every revocation that
is applied moves the counter forward. -/
theorem revocations_monotone (hr : Run step Proceeds (publishPool cfg tasks s) tr c)
    (hr' : Run step Proceeds c tr' c') (hs : s.cache = .empty) (ht : Timely (tr ++ tr')) :
    (∀ i j b b' l l', tasks i = .request name → tasks j = .request name → tr.own j = [] →
      c.threads i = .ret (.docs b) → c'.threads j = .ret (.docs b') →
      Publisher.pick .revocation b = .ok (.revocation l) →
      Publisher.pick .revocation b' = .ok (.revocation l') →
      l.asOf ≤ l'.asOf ∧ l.revoked ⊆ l'.revoked ∧ (l.asOf = l'.asOf → l.revoked = l'.revoked)) ∧
    ∀ i thumbprint n w t, (c'.threads i).next? = some (.table (.revoke name thumbprint n)) →
      step (.table (.revoke name thumbprint n)) c'.shared w = some t →
      Written.applied (w : Written PgFault ℤ) = true →
      (c'.shared.list name).asOf < (t.list name).asOf := by
  refine ⟨fun i j b b' l l' hi hj hown hret hret' hl hl' => ?_,
    fun i thumbprint n w t hnext hstep hw => ?_⟩
  · obtain ⟨d, rfl, hd⟩ := pick_revocation hl
    obtain ⟨d', rfl, hd'⟩ := pick_revocation hl'
    have hsettled := (publish_channel hr hs ht.left).settled.returned hi trivial
      (request_returned hr hi hret)
    have hfloor : Floor l (fun _ => False) tasks name (stages tr) c.shared := by
      rcases hsettled with hd₀ | ⟨-, rfl⟩
      · exact hd₀ l hd
      · cases hd
    have hstart : stages tr j = .start := by
      rw [stages, hown]
      rfl
    have hnew : Floor l (fun i => i = j) tasks name (stages tr) c.shared :=
      ⟨hfloor.serves.welcome (fun _ _ => Nat.zero_le _) hstart, hfloor.table, hfloor.read⟩
    have hend := (publish_floor hr hr' hs ht hnew).serves.returned hj rfl
      (request_returned (hr.trans hr') hj hret')
    rcases hend with hold | ⟨-, rfl⟩
    · have hle := hold l' hd'
      exact ⟨hle.asOf, hle.revoked, hle.same⟩
    · cases hd'
  · have hg := (hr.trans hr').next_guarded (fun i => (tasks i).prog_spec cfg) hnext
    have hn := PublishTask.revoke_pos ht hg
    rw [step_revoke hstep hw]
    exact RevocationList.asOf_lt_revoke _ _ hn

end

def openSchemas : Schemas := ⟨fun _ => true, fun _ => true, some⟩

def smallPublisher : Publisher.Config := Publisher.new ⟨"", 0, 0, openSchemas⟩

def announced : Fin 3 → PublishTask
  | 0 => .request elderRef.subdomain
  | 1 => .revoke elderRef.subdomain elderRef.thumbprint
  | 2 => .request elderRef.subdomain

def listGiven : Option PublishOutcome → Option RevocationList
  | some (.docs (.ok d)) => d.revocation
  | _ => none

theorem listGiven_eq_some {o : Option PublishOutcome} {l : RevocationList}
    (h : listGiven o = some l) :
    ∃ b, o = some (.docs b) ∧ Publisher.pick .revocation b = .ok (.revocation l) := by
  unfold listGiven at h
  split at h
  next d =>
    simp [Publisher.pick, Publisher.select, h]
  · cases h

theorem revocations_monotone_announced :
    ∃ tr c tr' c' b b', Run step Proceeds (publishPool smallPublisher announced twoKeys) tr c ∧
      Run step Proceeds c tr' c' ∧ c.threads 0 = .ret (.docs b) ∧ c'.threads 2 = .ret (.docs b') ∧
      Publisher.pick .revocation b = .ok (.revocation ⟨0, []⟩) ∧
      Publisher.pick .revocation b' = .ok (.revocation ⟨50, [elderRef.thumbprint]⟩) ∧
      (0 : ℤ) ≤ 50 := by
  obtain ⟨tr, c, tr', c', hr, hr', ht, hfresh, hl, hl'⟩ : ∃ tr c tr' c',
      Run step Proceeds (publishPool smallPublisher announced twoKeys) tr c ∧
      Run step Proceeds c tr' c' ∧ Timely (tr ++ tr') ∧ tr.own 2 = [] ∧
      listGiven (c.threads 0).result? = some ⟨0, []⟩ ∧
      listGiven (c'.threads 2).result? = some ⟨50, [elderRef.thumbprint]⟩ :=
    Pool.exists_run_run (turns 16 0) (turns 9 1 ++ turns 15 2) (by decide +kernel)
  obtain ⟨b, hb, hpick⟩ := listGiven_eq_some hl
  obtain ⟨b', hb', hpick'⟩ := listGiven_eq_some hl'
  have hret := result?_eq_some.mp hb
  have hret' := result?_eq_some.mp hb'
  have hmono := (revocations_monotone hr hr' rfl ht).1 0 2 b b' _ _ rfl rfl hfresh hret hret'
    hpick hpick'
  exact ⟨tr, c, tr', c', b, b', hr, hr', hret, hret', hpick, hpick', hmono.1⟩

end Ramp.Identity
