/-
**Channels and the kernel's table of interests** (`src/net/Channel.cc`, `src/net/Epoller.cc`).

A channel keeps the event mask it wants to be told about; the kernel keeps, for each registered
descriptor, the mask it was given.  `Channel::update` is meant to carry the first over to the
second, and always does so with `EPOLL_CTL_ADD`.

Main definitions:

* `Channel`, `Channel.enableReading`, `Channel.enableWriting` — the channel's own mask;
* `Epoll`, `Epoll.ctlAdd` — the open descriptors and the kernel's table;
* `Epoller.update`;
* `Watch`, `Watch.step` — any number of channels on one epoll instance, with descriptors that are
  opened, closed and reused;
* `Watch.InSync` — the mask registered for the descriptor of a channel is the channel's own;
* `Watch.Harmless` — the condition on a call under which it keeps them the same.

Main results:

* `Watch.inSync_step_iff` — a step keeps the masks the same exactly when it is harmless;
* `Watch.everyState_inSync_iff` — the same for whole runs.
-/

import G5.Lib.Mask
import G5.Lib.Runs
import Mathlib.Data.Int.Notation
import Mathlib.Logic.Function.Basic

set_option relaxedAutoImplicit false
set_option autoImplicit false

namespace G5

/-! ### Event masks -/

/-- A set of events. -/
abbrev Events := BitVec 32

def EPOLLIN : Events := 0x001

def EPOLLOUT : Events := 0x004

def kReadEvent : Events := EPOLLIN

def kWriteEvent : Events := EPOLLOUT

/-! ### Channels -/

/-- What a channel remembers, its callbacks apart. -/
structure Channel where
  fd : ℕ
  events : Events
  revents : Events
  deriving DecidableEq, Repr

namespace Channel

/-- The constructor. -/
def new (fd : ℕ) : Channel := ⟨fd, 0, 0⟩

/-- The mask `enableReading` gives the channel before it calls `update`. -/
def enableReading (c : Channel) (enable : Bool) : Channel :=
  if enable then { c with events := c.events ||| kReadEvent }
  else { c with events := c.events &&& ~~~kReadEvent }

/-- The mask `enableWriting` gives the channel before it calls `update`. -/
def enableWriting (c : Channel) (enable : Bool) : Channel :=
  if enable then { c with events := c.events ||| kWriteEvent }
  else { c with events := c.events &&& ~~~kWriteEvent }

def isReading (c : Channel) : Bool := c.events &&& kReadEvent ≠ 0

def isWriting (c : Channel) : Bool := c.events &&& kWriteEvent ≠ 0

/-! ### Reading the flags back -/

theorem single_kReadEvent : Mask.Single kReadEvent :=
  Mask.single_twoPow (w := 32) (i := 0) (by decide)

theorem single_kWriteEvent : Mask.Single kWriteEvent :=
  Mask.single_twoPow (w := 32) (i := 2) (by decide)

@[simp] theorem isReading_enableReading (c : Channel) (b : Bool) :
    (c.enableReading b).isReading = b := by
  cases b
  · simp [enableReading, isReading, Mask.diff_and_self]
  · simpa [enableReading, isReading, Mask.or_and_self] using single_kReadEvent.1

@[simp] theorem isWriting_enableWriting (c : Channel) (b : Bool) :
    (c.enableWriting b).isWriting = b := by
  cases b
  · simp [enableWriting, isWriting, Mask.diff_and_self]
  · simpa [enableWriting, isWriting, Mask.or_and_self] using single_kWriteEvent.1

@[simp] theorem isWriting_enableReading (c : Channel) (b : Bool) :
    (c.enableReading b).isWriting = c.isWriting := by
  have hdisj : kReadEvent &&& kWriteEvent = 0 := by decide
  cases b
  · simp [enableReading, isWriting, Mask.diff_and_of_disjoint _ hdisj]
  · simp [enableReading, isWriting, Mask.or_and_of_disjoint _ hdisj]

/-- Asking for reading leaves the mask as it is exactly when the answer is there already. -/
theorem enableReading_events_eq_iff (c : Channel) (b : Bool) :
    (c.enableReading b).events = c.events ↔ c.isReading = b := by
  cases b
  · simp [enableReading, isReading, Mask.diff_eq_self_iff]
  · simp [enableReading, isReading, Mask.or_eq_self_iff,
      ← single_kReadEvent.ne_zero_iff c.events]

/-- Asking for writing leaves the mask as it is exactly when the answer is there already. -/
theorem enableWriting_events_eq_iff (c : Channel) (b : Bool) :
    (c.enableWriting b).events = c.events ↔ c.isWriting = b := by
  cases b
  · simp [enableWriting, isWriting, Mask.diff_eq_self_iff]
  · simp [enableWriting, isWriting, Mask.or_eq_self_iff,
      ← single_kWriteEvent.ne_zero_iff c.events]

@[simp] theorem enableReading_fd (c : Channel) (b : Bool) : (c.enableReading b).fd = c.fd := by
  cases b <;> rfl

@[simp] theorem enableWriting_fd (c : Channel) (b : Bool) : (c.enableWriting b).fd = c.fd := by
  cases b <;> rfl

end Channel

/-! ### The kernel -/

/-- The descriptors of the process: for whom each open one was opened, and what epoll was told
about the registered ones.  `ι` names the channels; the kernel keeps the pointer it is given. -/
structure Epoll (ι : Type) where
  owner : ℕ → Option ι
  registered : ℕ → Option (ι × Events)

namespace Epoll

variable {ι : Type}

/-- No descriptor is open. -/
def init : Epoll ι := ⟨fun _ => none, fun _ => none⟩

/-- `epoll_ctl(EPOLL_CTL_ADD)`: it registers an open descriptor that is not registered, and fails
otherwise. -/
def ctlAdd (k : Epoll ι) (fd : ℕ) (c : ι) (ev : Events) : Epoll ι :=
  match k.owner fd, k.registered fd with
  | some _, none => { k with registered := Function.update k.registered fd (some (c, ev)) }
  | _, _ => k

/-- A new descriptor, for the channel `c`. -/
def openFd (k : Epoll ι) (fd : ℕ) (c : ι) : Epoll ι :=
  { k with owner := Function.update k.owner fd (some c) }

/-- `close`: the descriptor leaves the table as well. -/
def closeFd (k : Epoll ι) (fd : ℕ) : Epoll ι :=
  ⟨Function.update k.owner fd none, Function.update k.registered fd none⟩

/-- The mask registered for a descriptor. -/
def interest (k : Epoll ι) (fd : ℕ) : Events :=
  match k.registered fd with
  | none => 0
  | some (_, ev) => ev

theorem ctlAdd_of_closed {k : Epoll ι} {fd : ℕ} (h : k.owner fd = none) (c : ι) (ev : Events) :
    k.ctlAdd fd c ev = k := by
  simp [ctlAdd, h]

theorem ctlAdd_of_registered {k : Epoll ι} {fd : ℕ} {r : ι × Events}
    (h : k.registered fd = some r) (c : ι) (ev : Events) : k.ctlAdd fd c ev = k := by
  cases ho : k.owner fd <;> simp [ctlAdd, h, ho]

theorem ctlAdd_of_new {k : Epoll ι} {fd : ℕ} {d : ι} (ho : k.owner fd = some d)
    (hr : k.registered fd = none) (c : ι) (ev : Events) :
    k.ctlAdd fd c ev =
      { k with registered := Function.update k.registered fd (some (c, ev)) } := by
  simp [ctlAdd, ho, hr]

@[simp] theorem ctlAdd_owner (k : Epoll ι) (fd : ℕ) (c : ι) (ev : Events) :
    (k.ctlAdd fd c ev).owner = k.owner := by
  unfold ctlAdd
  split <;> rfl

/-- A descriptor that is registered after the request was registered before, or is the one asked
for. -/
theorem registered_of_ctlAdd {k : Epoll ι} {fd n : ℕ} {c : ι} {ev : Events} {r : ι × Events}
    (h : (k.ctlAdd fd c ev).registered n = some r) :
    k.registered n = some r ∨ n = fd ∧ r = (c, ev) := by
  unfold ctlAdd at h
  split at h
  · by_cases hn : n = fd
    · subst hn
      right
      simpa [eq_comm] using h
    · left
      simpa [Function.update_of_ne hn] using h
  · exact Or.inl h

/-- After the request, a descriptor has the mask asked for if it was not registered, and the mask
it had otherwise. -/
theorem interest_ctlAdd {k : Epoll ι} {fd : ℕ} {d : ι} (ho : k.owner fd = some d) (c : ι)
    (ev : Events) :
    (k.ctlAdd fd c ev).interest fd = if k.registered fd = none then ev else k.interest fd := by
  cases hr : k.registered fd with
  | none => simp [ctlAdd_of_new ho hr, interest]
  | some r => simp [ctlAdd_of_registered hr]

theorem interest_congr {k k' : Epoll ι} {fd : ℕ} (h : k'.registered fd = k.registered fd) :
    k'.interest fd = k.interest fd := by
  rw [interest, interest, h]

end Epoll

/-- `Epoller::update`: whatever the table holds, the request is `EPOLL_CTL_ADD`, and its result is
not looked at. -/
def Epoller.update {ι : Type} (k : Epoll ι) (c : ι) (channel : Channel) : Epoll ι :=
  k.ctlAdd channel.fd c channel.events

/-! ### Any number of channels -/

/-- The channels of a process and the kernel's table. -/
structure Watch (ι : Type) where
  channels : ι → Channel
  epoll : Epoll ι

/-- A call on a channel, or a descriptor that is opened for a new channel or closed. -/
inductive WatchOp (ι : Type)
  | openFd (c : ι) (fd : ℕ)
  | closeFd (fd : ℕ)
  | enableReading (c : ι) (enable : Bool)
  | enableWriting (c : ι) (enable : Bool)

namespace Watch

variable {ι : Type}

/-- No descriptor is open yet. -/
def init (channels : ι → Channel) : Watch ι := ⟨channels, Epoll.init⟩

/-- The channel has an open descriptor. -/
def IsOpen (s : Watch ι) (c : ι) : Prop := s.epoll.owner (s.channels c).fd = some c

/-- The mask registered for the open descriptor of a channel is the channel's own mask. -/
def InSync (s : Watch ι) : Prop :=
  ∀ c, s.IsOpen c → s.epoll.interest (s.channels c).fd = (s.channels c).events

/-- A descriptor belongs to the channel made for it, and only open ones are registered. -/
structure WellFormed (s : Watch ι) : Prop where
  owner_fd : ∀ fd c, s.epoll.owner fd = some c → (s.channels c).fd = fd
  registered_open : ∀ fd, s.epoll.owner fd = none → s.epoll.registered fd = none

theorem wellFormed_init (channels : ι → Channel) : (init channels).WellFormed where
  owner_fd := by intro fd c h; simp [init, Epoll.init] at h
  registered_open := by intro fd _; rfl

theorem inSync_init (channels : ι → Channel) : (init channels).InSync := by
  intro c h
  simp [IsOpen, init, Epoll.init] at h

variable [DecidableEq ι]

/-- The channel `c` is left as `ch`, which has just called `update`. -/
def updated (s : Watch ι) (c : ι) (ch : Channel) : Watch ι :=
  ⟨Function.update s.channels c ch, Epoller.update s.epoll c ch⟩

/-- One call.  A descriptor is opened with a number that is not open, for a channel object that is
constructed anew. -/
def step (s : Watch ι) : WatchOp ι → Option (Watch ι)
  | .openFd c fd =>
      if s.epoll.owner fd = none ∧ s.epoll.owner (s.channels c).fd ≠ some c then
        some ⟨Function.update s.channels c (Channel.new fd), s.epoll.openFd fd c⟩
      else none
  | .closeFd fd => some { s with epoll := s.epoll.closeFd fd }
  | .enableReading c b => some (s.updated c ((s.channels c).enableReading b))
  | .enableWriting c b => some (s.updated c ((s.channels c).enableWriting b))

/-- The channel `c` asks for the mask `ev`, and the table does not go wrong by it: a channel whose
descriptor is already registered asks for the mask it has, and a channel whose number now belongs
to another channel registers nothing, or by chance the mask of that other channel. -/
def UpdateHarmless (s : Watch ι) (c : ι) (ev : Events) : Prop :=
  (s.IsOpen c → s.epoll.registered (s.channels c).fd = none ∨ ev = (s.channels c).events) ∧
    ∀ d, d ≠ c → s.epoll.owner (s.channels c).fd = some d →
      s.epoll.registered (s.channels c).fd ≠ none ∨ ev = (s.channels d).events

/-- The condition on a step. -/
def Harmless (s : Watch ι) : WatchOp ι → Prop
  | .openFd _ _ => True
  | .closeFd _ => True
  | .enableReading c b => s.UpdateHarmless c ((s.channels c).enableReading b).events
  | .enableWriting c b => s.UpdateHarmless c ((s.channels c).enableWriting b).events

/-- A call of `update` keeps the table well formed. -/
theorem WellFormed.updated {s : Watch ι} (h : s.WellFormed) (c : ι) {ch : Channel}
    (hfd : ch.fd = (s.channels c).fd) : (s.updated c ch).WellFormed where
  owner_fd := by
    intro fd d hd
    have hd' : s.epoll.owner fd = some d := by simpa [Watch.updated, Epoller.update] using hd
    by_cases hdc : d = c
    · subst hdc
      simpa [Watch.updated, hfd] using h.owner_fd fd d hd'
    · simpa [Watch.updated, Function.update_of_ne hdc] using h.owner_fd fd d hd'
  registered_open := by
    intro fd ho
    have ho' : s.epoll.owner fd = none := by simpa [Watch.updated, Epoller.update] using ho
    have hne : ∀ e, s.epoll.owner ch.fd = some e → fd ≠ ch.fd := by
      intro e he heq
      rw [heq, he] at ho'
      cases ho'
    have hreg := h.registered_open fd ho'
    cases hown : s.epoll.owner ch.fd with
    | none => simpa [Watch.updated, Epoller.update, Epoll.ctlAdd_of_closed hown] using hreg
    | some e =>
        cases hr : s.epoll.registered ch.fd with
        | some r => simpa [Watch.updated, Epoller.update, Epoll.ctlAdd_of_registered hr] using hreg
        | none =>
            simpa [Watch.updated, Epoller.update, Epoll.ctlAdd_of_new hown hr,
              Function.update_of_ne (hne e hown)] using hreg

theorem wellFormed_step {s t : Watch ι} {op : WatchOp ι} (h : s.WellFormed)
    (hst : s.step op = some t) : t.WellFormed := by
  cases op with
  | openFd c fd =>
      simp only [step] at hst
      split at hst
      · rename_i hfresh
        cases hst
        refine ⟨?_, ?_⟩
        · intro n d hd
          by_cases hn : n = fd
          · subst hn
            have : c = d := by simpa [Epoll.openFd] using hd
            subst this
            simp [Channel.new]
          · have hd' : s.epoll.owner n = some d := by
              simpa [Epoll.openFd, Function.update_of_ne hn] using hd
            have hdc : d ≠ c := by
              intro heq
              subst heq
              exact hfresh.2 (by rwa [h.owner_fd n d hd'])
            simpa [Function.update_of_ne hdc] using h.owner_fd n d hd'
        · intro n hn
          by_cases hnf : n = fd
          · subst hnf
            simp [Epoll.openFd] at hn
          · exact h.registered_open n (by simpa [Epoll.openFd, Function.update_of_ne hnf] using hn)
      · cases hst
  | closeFd fd =>
      cases hst
      refine ⟨?_, ?_⟩
      · intro n d hd
        by_cases hn : n = fd
        · subst hn
          simp [Epoll.closeFd] at hd
        · exact h.owner_fd n d (by simpa [Epoll.closeFd, Function.update_of_ne hn] using hd)
      · intro n hn
        by_cases hnf : n = fd
        · subst hnf
          simp [Epoll.closeFd]
        · simpa [Epoll.closeFd, Function.update_of_ne hnf] using
            h.registered_open n (by simpa [Epoll.closeFd, Function.update_of_ne hnf] using hn)
  | enableReading c b =>
      cases hst
      exact h.updated c (by simp)
  | enableWriting c b =>
      cases hst
      exact h.updated c (by simp)

/-! ### What a call of `update` does to the masks -/

theorem isOpen_updated_iff (s : Watch ι) (c : ι) {ch : Channel} (hfd : ch.fd = (s.channels c).fd)
    (d : ι) : (s.updated c ch).IsOpen d ↔ s.IsOpen d := by
  by_cases hdc : d = c
  · subst hdc
    simp [IsOpen, updated, Epoller.update, hfd]
  · simp [IsOpen, updated, Epoller.update, Function.update_of_ne hdc]

/-- A descriptor other than the caller's keeps its registration. -/
theorem interest_updated_of_ne {s : Watch ι} {c : ι} {ch : Channel} {n : ℕ} (hn : n ≠ ch.fd) :
    (s.updated c ch).epoll.interest n = s.epoll.interest n := by
  refine Epoll.interest_congr ?_
  simp only [updated, Epoller.update, Epoll.ctlAdd]
  split
  · simp [Function.update_of_ne hn]
  · rfl

/-- Only the channel that owns the caller's number, and the caller itself, can come out of step. -/
theorem inSync_updated_iff_forall {s : Watch ι} (hs : s.InSync) (c : ι) {ch : Channel}
    (hfd : ch.fd = (s.channels c).fd) :
    (s.updated c ch).InSync ↔ ∀ d, s.IsOpen d → (s.channels d).fd = ch.fd →
      (s.updated c ch).epoll.interest ch.fd = ((s.updated c ch).channels d).events := by
  constructor
  · intro h d hd hdfd
    have := h d ((isOpen_updated_iff s c hfd d).2 hd)
    by_cases hdc : d = c
    · subst hdc
      simpa [updated] using this
    · simpa [updated, Function.update_of_ne hdc, hdfd] using this
  · intro h d hd
    have hd' := (isOpen_updated_iff s c hfd d).1 hd
    by_cases hdfd : (s.channels d).fd = ch.fd
    · rw [← h d hd' hdfd]
      by_cases hdc : d = c
      · subst hdc
        simp [updated]
      · simp [updated, Function.update_of_ne hdc, hdfd]
    · have hdc : d ≠ c := fun heq => hdfd (heq ▸ hfd.symm)
      simp only [updated, Function.update_of_ne hdc]
      exact (interest_updated_of_ne hdfd).trans (hs d hd')

/-- Where the descriptor belongs to the channel `e`, all depends on what is asked for it. -/
theorem inSync_updated_iff_of_owner {s : Watch ι} (hwf : s.WellFormed) (hs : s.InSync) (c : ι)
    {ch : Channel} (hfd : ch.fd = (s.channels c).fd) {e : ι}
    (hown : s.epoll.owner ch.fd = some e) :
    (s.updated c ch).InSync ↔
      (if s.epoll.registered ch.fd = none then ch.events else (s.channels e).events) =
        ((s.updated c ch).channels e).events := by
  have he : (s.channels e).fd = ch.fd := hwf.owner_fd _ _ hown
  have heopen : s.IsOpen e := by rw [IsOpen, he, hown]
  have hold : s.epoll.interest ch.fd = (s.channels e).events := he ▸ hs e heopen
  have hnew : (s.updated c ch).epoll.interest ch.fd =
      if s.epoll.registered ch.fd = none then ch.events else s.epoll.interest ch.fd :=
    Epoll.interest_ctlAdd hown c ch.events
  rw [inSync_updated_iff_forall hs c hfd, ← hold, ← hnew]
  constructor
  · intro h
    exact h e heopen he
  · intro h d hd hdfd
    rw [IsOpen, hdfd, hown] at hd
    exact Option.some_inj.1 hd ▸ h

/-- **A call of `update` keeps the masks the same exactly when it is harmless.** -/
theorem inSync_updated_iff {s : Watch ι} (hwf : s.WellFormed) (hs : s.InSync) (c : ι)
    {ch : Channel} (hfd : ch.fd = (s.channels c).fd) :
    (s.updated c ch).InSync ↔ s.UpdateHarmless c ch.events := by
  rw [UpdateHarmless, IsOpen, ← hfd]
  cases hown : s.epoll.owner ch.fd with
  | none =>
      -- the descriptor is closed: nothing is asked, and nothing changes
      rw [inSync_updated_iff_forall hs c hfd]
      refine iff_of_true ?_ ⟨(fun h => nomatch h), (fun _ _ h => nomatch h)⟩
      intro d hd hdfd
      rw [IsOpen, hdfd, hown] at hd
      cases hd
  | some e =>
      rw [inSync_updated_iff_of_owner hwf hs c hfd hown]
      by_cases hec : e = c
      · -- the caller owns the descriptor
        subst hec
        have hself : ((s.updated e ch).channels e).events = ch.events := by simp [updated]
        rw [hself]
        constructor
        · intro h
          refine ⟨?_, fun d hde hd => absurd (Option.some_inj.1 hd).symm hde⟩
          intro _
          by_cases hr : s.epoll.registered ch.fd = none
          · exact Or.inl hr
          · rw [if_neg hr] at h
            exact Or.inr h.symm
        · rintro ⟨h, -⟩
          rcases h rfl with h | h
          · rw [if_pos h]
          · rw [h, ite_self]
      · -- the number now belongs to the channel `e`
        have hother : ((s.updated c ch).channels e).events = (s.channels e).events := by
          simp [updated, Function.update_of_ne hec]
        rw [hother]
        constructor
        · intro h
          refine ⟨fun hc => absurd (Option.some_inj.1 hc) hec, fun d _ hd => ?_⟩
          obtain rfl := Option.some_inj.1 hd
          by_cases hr : s.epoll.registered ch.fd = none
          · rw [if_pos hr] at h
            exact Or.inr h
          · exact Or.inl hr
        · rintro ⟨-, h⟩
          rcases h e hec rfl with h | h
          · rw [if_neg h]
          · rw [h, ite_self]

/-- A step keeps the masks the same exactly when it is harmless. -/
theorem inSync_step_iff {s t : Watch ι} {op : WatchOp ι} (hwf : s.WellFormed) (hs : s.InSync)
    (hst : s.step op = some t) : t.InSync ↔ s.Harmless op := by
  cases op with
  | openFd c fd =>
      simp only [step] at hst
      split at hst
      · rename_i hfresh
        cases hst
        refine iff_of_true ?_ trivial
        intro d hd
        have hreg := hwf.registered_open fd hfresh.1
        by_cases hdc : d = c
        · subst hdc
          simp [Channel.new, Epoll.openFd, Epoll.interest, hreg]
        · have hne : (s.channels d).fd ≠ fd := by
            intro heq
            have : c = d := by
              simpa [IsOpen, Epoll.openFd, Function.update_of_ne hdc, heq] using hd
            exact hdc this.symm
          have hd' : s.IsOpen d := by
            simpa [IsOpen, Epoll.openFd, Function.update_of_ne hdc, Function.update_of_ne hne]
              using hd
          simpa [Function.update_of_ne hdc, Epoll.openFd, Epoll.interest] using hs d hd'
      · cases hst
  | closeFd fd =>
      cases hst
      refine iff_of_true ?_ trivial
      intro d hd
      have hne : (s.channels d).fd ≠ fd := by
        intro heq
        simp [IsOpen, Epoll.closeFd, heq] at hd
      have hd' : s.IsOpen d := by
        simpa [IsOpen, Epoll.closeFd, Function.update_of_ne hne] using hd
      simpa [Epoll.closeFd, Epoll.interest, Function.update_of_ne hne] using hs d hd'
  | enableReading c b =>
      cases hst
      exact inSync_updated_iff hwf hs c (by simp)
  | enableWriting c b =>
      cases hst
      exact inSync_updated_iff hwf hs c (by simp)

/-- The masks agree in every state of a run exactly when every call of the run is harmless. -/
theorem everyState_inSync_iff (channels : ι → Channel) {ops : List (WatchOp ι)} {t : Watch ι}
    (h : Runs.exec step (init channels) ops = some t) :
    Runs.EveryState step InSync (init channels) ops ↔
      Runs.EveryStep step Harmless (init channels) ops :=
  Runs.everyState_iff_everyStep (I := WellFormed)
    (fun _ _ _ hwf _ hst _ => wellFormed_step hwf hst)
    (fun _ _ _ hwf hs hst => inSync_step_iff hwf hs hst)
    (wellFormed_init channels) (inSync_init channels) h

end Watch

end G5
