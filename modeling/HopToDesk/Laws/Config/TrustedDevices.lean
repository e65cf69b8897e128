import HopToDesk.Config.TrustedDevices

/-!
# Which devices stay revoked

A list reflects a call when it shows what the call did, or what was done about the same hwid later
(`Reflects`). While every call writes what is current, the list in `Config2` reflects every call that
has written it, and the cache all of them but the one that still holds `Config2`. A call that has
returned does not hold it, so what `get_trusted_devices` gets, from the cache or from `Config2`,
reflects every call that returned before it began.
-/

set_option autoImplicit false

namespace HopToDesk.Config

open Kit

namespace Method

theorem about_add (device : TrustedDevice) (hwid : List UInt8) :
    (addTrustedDevice device).About hwid ↔ hwid = device.hwid := by
  simp only [About, Removes, Adds, false_or, eq_comm]

theorem about_remove (hwids : List (List UInt8)) (hwid : List UInt8) :
    (removeTrustedDevices hwids).About hwid ↔ hwid ∈ hwids := by
  simp only [About, Removes, Adds, or_false]

/-- A change looks only at the devices it is not about. -/
theorem change_congr {m : Method} {devices devices' : List TrustedDevice}
    (h : devices.filter (¬ m.About ·.hwid) = devices'.filter (¬ m.About ·.hwid)) :
    m.change devices = m.change devices' := by
  cases m with
  | getTrustedDevices | clearTrustedDevices => rfl
  | addTrustedDevice device =>
    simp only [about_add] at h
    simp only [change, ne_eq, h]
  | removeTrustedDevices hwids =>
    simp only [about_remove] at h
    simp only [change, h]

/-- What is set is what was there that the function is not about, and the device it adds. -/
theorem mem_change {m : Method} {devices changed : List TrustedDevice}
    (h : m.change devices = some changed) (d : TrustedDevice) :
    d ∈ changed ↔ d ∈ devices ∧ ¬ m.About d.hwid ∨ m = .addTrustedDevice d := by
  cases m with
  | getTrustedDevices => cases h
  | addTrustedDevice device =>
    cases h
    have hself : addTrustedDevice device = addTrustedDevice d ↔ d = device := by
      rw [addTrustedDevice.injEq, eq_comm]
    simp only [List.mem_append, List.mem_filter, List.mem_singleton, about_add, ne_eq,
      decide_eq_true_eq, hself]
  | removeTrustedDevices hwids =>
    cases h
    simp only [List.mem_filter, about_remove, decide_eq_true_eq, reduceCtorEq, or_false]
  | clearTrustedDevices =>
    cases h
    simp only [List.not_mem_nil, About, Removes, true_or, not_true_eq_false, and_false,
      reduceCtorEq, or_self]

end Method

namespace Devices

section

variable {κ : Type} {enc : Encoding κ} {s s' : Devices κ}

/-- The call is of this function, and its list was set at this time. -/
def Wrote (s : Devices κ) (k : Nat) (m : Method) (t : Nat) : Prop :=
  ∃ c, s.calls k = some c ∧ c.method = m ∧ c.wrote = some t

/-- The call has returned before this time. -/
def Before (s : Devices κ) (b : Nat) (k : Nat) : Prop :=
  ∃ c t devices, s.calls k = some c ∧ c.pc = .returned t devices ∧ t < b

/-- The list shows what the calls of `P` did, or what was done later. -/
structure Reflects (s : Devices κ) (P : Nat → Prop) (devices : List TrustedDevice) : Prop where
  removed : ∀ r m t, P r → s.Wrote r m t → ∀ d ∈ devices, m.Removes d.hwid →
    ∃ a m' t', s.Wrote a m' t' ∧ m'.Adds d.hwid ∧ t < t'
  added : ∀ a d t, P a → s.Wrote a (.addTrustedDevice d) t →
    d ∈ devices ∨ ∃ b m' t', s.Wrote b m' t' ∧ m'.About d.hwid ∧ t < t'

theorem Reflects.mono {P P' : Nat → Prop} {devices : List TrustedDevice}
    (h : s.Reflects P devices) (hmono : ∀ k m t, s.Wrote k m t → s'.Wrote k m t)
    (hP : ∀ k m t, P' k → s'.Wrote k m t → P k ∧ s.Wrote k m t) : s'.Reflects P' devices := by
  constructor
  · intro r m t hr hwrote d hd hremoves
    obtain ⟨hrP, hwrote⟩ := hP r m t hr hwrote
    obtain ⟨a, m', t', hadd, hadds, hlt⟩ := h.removed r m t hrP hwrote d hd hremoves
    exact ⟨a, m', t', hmono _ _ _ hadd, hadds, hlt⟩
  · intro a d t ha hwrote
    obtain ⟨haP, hwrote⟩ := hP a _ t ha hwrote
    rcases h.added a d t haP hwrote with hd | ⟨b, m', t', habout, hm, hlt⟩
    · exact .inl hd
    · exact .inr ⟨b, m', t', hmono _ _ _ habout, hm, hlt⟩

/-- Of fewer calls. -/
theorem Reflects.of_imp {P Q : Nat → Prop} {devices : List TrustedDevice}
    (h : s.Reflects P devices) (hP : ∀ k, Q k → P k) : s.Reflects Q devices :=
  h.mono (fun _ _ _ hk => hk) fun k _ _ hk hwrote => ⟨hP k hk, hwrote⟩

/-! ## One call steps -/

/-- From `s` to `s'` one call takes a step, its first perhaps, and is `c` afterwards. -/
structure Frame (s s' : Devices κ) (k : Nat) (c : Call) : Prop where
  calls : s'.calls = Function.update s.calls k (some c)
  clock : s'.clock = s.clock + 1
  keeps : ∀ c₀, s.calls k = some c₀ → c.method = c₀.method ∧ c.began = c₀.began ∧
    ∀ t, c₀.wrote = some t → c.wrote = some t
  running : ∀ c₀, s.calls k = some c₀ → ∀ t devices, c₀.pc ≠ .returned t devices
  now : ∀ t devices, c.pc = .returned t devices → t = s.clock

namespace Frame

variable {k : Nat} {c : Call} (h : Frame s s' k c)
include h

theorem calls_self : s'.calls k = some c := by
  rw [h.calls, Function.update_self]

theorem calls_of_ne {r : Nat} (hr : r ≠ k) : s'.calls r = s.calls r := by
  rw [h.calls, Function.update_of_ne hr]

theorem wrote_mono {r : Nat} {m : Method} {t : Nat} (hr : s.Wrote r m t) : s'.Wrote r m t := by
  obtain ⟨c₀, hc₀, hm, ht⟩ := hr
  by_cases hrk : r = k
  · subst hrk
    obtain ⟨hmethod, -, hwrote⟩ := h.keeps c₀ hc₀
    exact ⟨c, h.calls_self, hmethod.trans hm, hwrote t ht⟩
  · exact ⟨c₀, (h.calls_of_ne hrk).trans hc₀, hm, ht⟩

theorem wrote_of_ne {r : Nat} {m : Method} {t : Nat} (hrk : r ≠ k) (hr : s'.Wrote r m t) :
    s.Wrote r m t := by
  obtain ⟨c₀, hc₀, hm, ht⟩ := hr
  exact ⟨c₀, (h.calls_of_ne hrk).symm.trans hc₀, hm, ht⟩

/-- A call that has returned is not the one that steps, and had returned before the step. -/
theorem before {b r : Nat} (hb : b ≤ s.clock) (hr : s'.Before b r) : r ≠ k ∧ s.Before b r := by
  obtain ⟨c₀, t, devices, hc₀, hpc, ht⟩ := hr
  have hrk : r ≠ k := by
    rintro rfl
    rw [h.calls_self] at hc₀
    cases hc₀
    have hnow := h.now t devices hpc
    omega
  exact ⟨hrk, c₀, t, devices, (h.calls_of_ne hrk).symm.trans hc₀, hpc, ht⟩

/-- What reflects the calls that returned before still does. -/
theorem reflects {b : Nat} {devices : List TrustedDevice} (hb : b ≤ s.clock)
    (hdevices : s.Reflects (s.Before b) devices) : s'.Reflects (s'.Before b) devices := by
  refine hdevices.mono (fun _ _ _ => h.wrote_mono) ?_
  intro r m t hr hwrote
  obtain ⟨hrk, hbefore⟩ := h.before hb hr
  exact ⟨hbefore, h.wrote_of_ne hrk hwrote⟩

/-- A step in which no list of a call's own is set leaves what was written. -/
theorem wrote_iff (hquiet : ∀ t, c.wrote = some t →
      ∃ c₀, s.calls k = some c₀ ∧ c₀.wrote = some t) {r : Nat} {m : Method} {t : Nat} :
    s'.Wrote r m t ↔ s.Wrote r m t := by
  refine ⟨?_, h.wrote_mono⟩
  intro hr
  by_cases hrk : r = k
  · subst hrk
    obtain ⟨c', hc', hm, ht⟩ := hr
    rw [h.calls_self] at hc'
    cases hc'
    obtain ⟨c₀, hc₀, hwrote⟩ := hquiet t ht
    exact ⟨c₀, hc₀, (h.keeps c₀ hc₀).1.symm.trans hm, hwrote⟩
  · exact h.wrote_of_ne hrk hr

/-- The same, of what a list reflects. -/
theorem reflects_quiet (hquiet : ∀ t, c.wrote = some t →
      ∃ c₀, s.calls k = some c₀ ∧ c₀.wrote = some t) {P : Nat → Prop}
    {devices : List TrustedDevice} (hdevices : s.Reflects P devices) : s'.Reflects P devices :=
  hdevices.mono (fun _ _ _ => h.wrote_mono)
    fun _ _ _ hP hwrote => ⟨hP, (h.wrote_iff hquiet).mp hwrote⟩

end Frame

/-! ## The invariant -/

/-- What is known of a call by where it stands. -/
def PcOk (enc : Encoding κ) (s : Devices κ) (k : Nat) (c : Call) : Prop :=
  match c.pc with
  | .readCache | .readConfig | .set _ => c.wrote = none
  | .restore devices | .fillCache devices =>
    c.wrote = none ∧ s.Reflects (s.Before c.began) devices
  | .restoreCache devices kept =>
    c.wrote = none ∧ s.Reflects (s.Before c.began) devices ∧ s.writer = some k ∧
      kept = s.stored enc
  | .setCache kept =>
    (∃ t, c.wrote = some t) ∧ c.method ≠ .getTrustedDevices ∧ s.writer = some k ∧
      kept = s.stored enc
  | .returned t devices =>
    t < s.clock ∧
      (c.method = .getTrustedDevices → s.Reflects (s.Before c.began) devices) ∧
      (c.method ≠ .getTrustedDevices → ∃ t, c.wrote = some t)

/-- When a call began and when its list was set. -/
def Timed (s : Devices κ) (c : Call) : Prop :=
  c.began < s.clock ∧ ∀ t, c.wrote = some t → c.began < t ∧ t < s.clock

/-- It stays so where the call stands elsewhere, or does not step. -/
theorem Timed.frame {k : Nat} {c c₀ : Call} {pc : Pc} (h : s.Timed c₀) (hframe : Frame s s' k c) :
    s'.Timed { c₀ with pc := pc } := by
  refine ⟨?_, ?_⟩
  · rw [hframe.clock]
    exact Nat.lt_succ_of_lt h.1
  · intro t ht
    rw [hframe.clock]
    exact ⟨(h.2 t ht).1, Nat.lt_succ_of_lt (h.2 t ht).2⟩

structure Inv (enc : Encoding κ) (s : Devices κ) : Prop where
  stored : s.Reflects (fun _ => True) (s.stored enc)
  cache : s.cache.2 = true → s.Reflects (fun k => s.writer ≠ some k) s.cache.1
  writer : ∀ w, s.writer = some w → ∃ c, s.calls w = some c ∧
    ((∃ kept, c.pc = .setCache kept) ∨ ∃ devices kept, c.pc = .restoreCache devices kept)
  calls : ∀ k c, s.calls k = some c → s.Timed c ∧ PcOk enc s k c

/-- What is known of a call that does not step stays known. -/
theorem PcOk.frame {k r : Nat} {c c₀ : Call} (hframe : Frame s s' k c) (htimed : s.Timed c₀)
    (hholder : s.writer = some r → s'.writer = some r ∧ s'.stored enc = s.stored enc)
    (h : PcOk enc s r c₀) : PcOk enc s' r c₀ := by
  have hreflects : ∀ devices, s.Reflects (s.Before c₀.began) devices →
      s'.Reflects (s'.Before c₀.began) devices :=
    fun devices => hframe.reflects (Nat.le_of_lt htimed.1)
  unfold PcOk at h ⊢
  cases hpc : c₀.pc with
  | readCache | readConfig | set devices => simpa only [hpc] using h
  | restore devices | fillCache devices =>
    simp only [hpc] at h ⊢
    exact ⟨h.1, hreflects _ h.2⟩
  | restoreCache devices kept =>
    simp only [hpc] at h ⊢
    obtain ⟨hwrote, hdevices, hwriter, hkept⟩ := h
    obtain ⟨hwriter', hstored⟩ := hholder hwriter
    exact ⟨hwrote, hreflects _ hdevices, hwriter', hkept.trans hstored.symm⟩
  | setCache kept =>
    simp only [hpc] at h ⊢
    obtain ⟨hwrote, hmethod, hwriter, hkept⟩ := h
    obtain ⟨hwriter', hstored⟩ := hholder hwriter
    exact ⟨hwrote, hmethod, hwriter', hkept.trans hstored.symm⟩
  | returned t devices =>
    simp only [hpc] at h ⊢
    refine ⟨?_, fun hm => hreflects _ (h.2.1 hm), h.2.2⟩
    rw [hframe.clock]
    exact Nat.lt_succ_of_lt h.1

/-- The invariant after a step of one call: of the lists, and of the call. -/
theorem Inv.frame {k : Nat} {c : Call} (hs : Inv enc s) (hframe : Frame s s' k c)
    (hstored : s'.Reflects (fun _ => True) (s'.stored enc))
    (hcache : s'.cache.2 = true → s'.Reflects (fun r => s'.writer ≠ some r) s'.cache.1)
    (hwriter : s'.writer = none ∨ s'.writer = s.writer ∨ s'.writer = some k)
    (hholder : s.writer = none ∨ s.writer = some k ∨
      s'.writer = s.writer ∧ s'.stored enc = s.stored enc)
    (hlock : s'.writer = some k → (∃ kept, c.pc = .setCache kept) ∨
      ∃ devices kept, c.pc = .restoreCache devices kept)
    (hcall : s'.Timed c ∧ PcOk enc s' k c) : Inv enc s' where
  stored := hstored
  cache := hcache
  writer := by
    intro w hw
    by_cases hwk : w = k
    · subst hwk
      exact ⟨c, hframe.calls_self, hlock hw⟩
    · have hbefore : s.writer = some w := by
        rcases hwriter with hnone | hsame | hk
        · rw [hw] at hnone
          cases hnone
        · exact hsame ▸ hw
        · rw [hw] at hk
          cases hk
          exact absurd rfl hwk
      obtain ⟨c₀, hc₀, hpc⟩ := hs.writer w hbefore
      exact ⟨c₀, (hframe.calls_of_ne hwk).trans hc₀, hpc⟩
  calls := by
    intro r c₀ hc₀
    by_cases hrk : r = k
    · subst hrk
      rw [hframe.calls_self] at hc₀
      cases hc₀
      exact hcall
    · rw [hframe.calls_of_ne hrk] at hc₀
      obtain ⟨htimed, hpc⟩ := hs.calls r c₀ hc₀
      refine ⟨htimed.frame hframe, hpc.frame hframe htimed ?_⟩
      intro hr
      rcases hholder with hnone | hk | hsame
      · rw [hr] at hnone
        cases hnone
      · rw [hr] at hk
        cases hk
        exact absurd rfl hrk
      · exact ⟨hsame.1.trans hr, hsame.2⟩

/-- Calls that have returned have set their lists, and do not hold `Config2`. -/
theorem Inv.not_writer {b r : Nat} (hs : Inv enc s) (hr : s.Before b r) : s.writer ≠ some r := by
  intro hw
  obtain ⟨c, hc, hpc⟩ := hs.writer r hw
  obtain ⟨c', t, devices, hc', hreturned, -⟩ := hr
  rw [hc] at hc'
  cases hc'
  rcases hpc with ⟨kept, hpc⟩ | ⟨_, kept, hpc⟩
  · rw [hpc] at hreturned
    cases hreturned
  · rw [hpc] at hreturned
    cases hreturned

/-! ## The steps -/

theorem frame_put {k : Nat} {c c' : Call} (hc : s.calls k = some c)
    (hrunning : ∀ t devices, c.pc ≠ .returned t devices)
    (hmethod : c'.method = c.method) (hbegan : c'.began = c.began)
    (hwrote : ∀ t, c.wrote = some t → c'.wrote = some t)
    (hnow : ∀ t devices, c'.pc = .returned t devices → t = s.clock)
    {cache : List TrustedDevice × Bool} {config : κ} {writer : Option Nat} :
    Frame s ({ s with cache := cache, config := config, writer := writer }.put k c') k c' where
  calls := rfl
  clock := rfl
  keeps c₀ hc₀ := by
    rw [hc] at hc₀
    cases hc₀
    exact ⟨hmethod, hbegan, hwrote⟩
  running c₀ hc₀ := by
    rw [hc] at hc₀
    cases hc₀
    exact hrunning
  now := hnow

theorem frame_pc {k : Nat} {c : Call} {pc : Pc} (hc : s.calls k = some c)
    (hrunning : ∀ t devices, c.pc ≠ .returned t devices)
    (hnow : ∀ t devices, pc = .returned t devices → t = s.clock)
    {cache : List TrustedDevice × Bool} {config : κ} {writer : Option Nat} :
    Frame s ({ s with cache := cache, config := config, writer := writer }.put k
      { c with pc := pc }) k { c with pc := pc } := by
  refine frame_put hc hrunning ?_ ?_ ?_ hnow
  · rfl
  · rfl
  · exact fun _ ht => ht

theorem got_cases (s : Devices κ) (c : Call) (devices : List TrustedDevice) :
    c.method = .getTrustedDevices ∧ s.got c devices = .returned s.clock devices ∨
      c.method ≠ .getTrustedDevices ∧ s.got c devices = .set devices := by
  unfold got
  cases hm : c.method with
  | getTrustedDevices => exact .inl ⟨rfl, rfl⟩
  | addTrustedDevice device => exact .inr ⟨Method.noConfusion, rfl⟩
  | removeTrustedDevices hwids => exact .inr ⟨Method.noConfusion, rfl⟩
  | clearTrustedDevices => exact .inr ⟨Method.noConfusion, rfl⟩

/-- What a call does with a list that reflects the calls that returned before it began. -/
theorem PcOk.got {k : Nat} {c : Call} {devices : List TrustedDevice}
    (hframe : Frame s s' k { c with pc := s.got c devices }) (htimed : s.Timed c)
    (hwrote : c.wrote = none) (hdevices : s.Reflects (s.Before c.began) devices) :
    PcOk enc s' k { c with pc := s.got c devices } := by
  rcases s.got_cases c devices with ⟨hget, hgot⟩ | ⟨hset, hgot⟩
  · rw [hgot] at hframe ⊢
    refine ⟨?_, fun _ => hframe.reflects (Nat.le_of_lt htimed.1) hdevices, fun hm => absurd hget hm⟩
    rw [hframe.clock]
    exact Nat.lt_succ_self _
  · rw [hgot]
    exact hwrote

theorem got_now (s : Devices κ) (c : Call) (devices : List TrustedDevice) :
    ∀ t ds, s.got c devices = .returned t ds → t = s.clock := by
  intro t ds h
  rcases s.got_cases c devices with ⟨-, hgot⟩ | ⟨-, hgot⟩
  · rw [hgot] at h
    cases h
    rfl
  · rw [hgot] at h
    cases h

/-- A step after which a call stands elsewhere, and nothing is set. -/
theorem Inv.put {k : Nat} {c : Call} {pc : Pc} (hs : Inv enc s) (hc : s.calls k = some c)
    (hfree : s.writer ≠ some k)
    (hframe : Frame s (s.put k { c with pc := pc }) k { c with pc := pc })
    (hpc : PcOk enc (s.put k { c with pc := pc }) k { c with pc := pc }) :
    Inv enc (s.put k { c with pc := pc }) := by
  have hquiet : ∀ t, c.wrote = some t → ∃ c₀, s.calls k = some c₀ ∧ c₀.wrote = some t :=
    fun t ht => ⟨c, hc, ht⟩
  obtain ⟨htimed, -⟩ := hs.calls k c hc
  exact hs.frame hframe (hframe.reflects_quiet hquiet hs.stored)
    (fun hsync => hframe.reflects_quiet hquiet (hs.cache hsync)) (.inr (.inl rfl))
    (.inr (.inr ⟨rfl, rfl⟩)) (fun hw => absurd hw hfree) ⟨htimed.frame hframe, hpc⟩

variable {k : Nat} {c : Call} {now : Int}

/-- A call that does not stand between its two writes does not hold `Config2`. -/
theorem Inv.free (hs : Inv enc s) (hc : s.calls k = some c) (hset : ∀ kept, c.pc ≠ .setCache kept)
    (hrestore : ∀ devices kept, c.pc ≠ .restoreCache devices kept) : s.writer ≠ some k := by
  intro hw
  obtain ⟨c', hc', hpc⟩ := hs.writer k hw
  rw [hc] at hc'
  cases hc'
  rcases hpc with ⟨kept, hpc⟩ | ⟨devices, kept, hpc⟩
  · exact hset kept hpc
  · exact hrestore devices kept hpc

theorem stored_of_decrypt {devices : List TrustedDevice} {succ store : Bool}
    (h : enc.decrypt s.config = (devices, succ, store)) :
    s.stored enc = if succ then devices else [] := by
  unfold stored
  rw [h]
  cases succ <;> rfl

theorem stored_encrypt (s : Devices κ) (k : Nat) (c : Call) (cache : List TrustedDevice × Bool)
    (writer : Option Nat) {devices : List TrustedDevice} (h : enc.tooLarge devices = false) :
    ({ s with cache := cache, config := enc.encrypt devices, writer := writer }.put k c).stored
      enc = devices :=
  (stored_of_decrypt (enc.decrypt_encrypt devices h)).trans (if_pos rfl)

theorem filter_outdate {devices : List TrustedDevice} (h : ∀ d ∈ devices, d.outdate now = false) :
    devices.filter (!·.outdate now) = devices := by
  apply List.filter_eq_self.mpr
  intro d hd
  rw [h d hd]
  rfl

theorem Inv.readCache (hs : Inv enc s) (hc : s.calls k = some c) (hpc : c.pc = .readCache)
    (h : s.advance enc k now c = some s') : Inv enc s' := by
  simp only [advance, hpc, Option.some.injEq] at h
  subst h
  obtain ⟨htimed, hok⟩ := hs.calls k c hc
  simp only [PcOk, hpc] at hok
  have hfree := hs.free hc (by simp [hpc]) (by simp [hpc])
  cases hsync : s.cache.2 with
  | true =>
    have hframe : Frame s (s.put k { c with pc := s.got c s.cache.1 }) k _ :=
      frame_pc hc (by simp [hpc]) (s.got_now c s.cache.1)
    refine hs.put hc hfree hframe (PcOk.got hframe htimed hok ?_)
    exact (hs.cache hsync).of_imp fun r hr => hs.not_writer hr
  | false => exact hs.put hc hfree (frame_pc hc (by simp [hpc]) (by simp)) hok

theorem Inv.readConfig (hs : Inv enc s) (hc : s.calls k = some c) (hpc : c.pc = .readConfig)
    (hscope : s.InScope enc (.advance k now)) (h : s.advance enc k now c = some s') :
    Inv enc s' := by
  rcases hdec : enc.decrypt s.config with ⟨devices, succ, store⟩
  simp only [advance, hpc, hdec] at h
  obtain ⟨htimed, hok⟩ := hs.calls k c hc
  simp only [PcOk, hpc] at hok
  have hfree := hs.free hc (by simp [hpc]) (by simp [hpc])
  split at h
  next => cases h
  next =>
  have hstored := stored_of_decrypt hdec
  have hbefore := hs.stored.of_imp (Q := s.Before c.began) fun _ _ => trivial
  cases succ with
  | true =>
    simp only [if_true, Option.some.injEq] at h hstored
    rw [filter_outdate (by rw [← hstored]; exact hscope.1)] at h
    subst h
    rw [hstored] at hbefore
    split
    · have hframe : Frame s (s.put k { c with pc := .restore devices }) k _ :=
        frame_pc hc (by simp [hpc]) (by simp)
      exact hs.put hc hfree hframe ⟨hok, hframe.reflects (Nat.le_of_lt htimed.1) hbefore⟩
    · have hframe : Frame s (s.put k { c with pc := .fillCache devices }) k _ :=
        frame_pc hc (by simp [hpc]) (by simp)
      exact hs.put hc hfree hframe ⟨hok, hframe.reflects (Nat.le_of_lt htimed.1) hbefore⟩
  | false =>
    simp only [Bool.false_eq_true, if_false, Option.some.injEq] at h hstored
    subst h
    rw [hstored] at hbefore
    have hframe : Frame s (s.put k { c with pc := s.got c [] }) k _ :=
      frame_pc hc (by simp [hpc]) (s.got_now c [])
    exact hs.put hc hfree hframe (PcOk.got hframe htimed hok hbefore)

theorem Inv.restore {devices : List TrustedDevice} (hs : Inv enc s) (hc : s.calls k = some c)
    (hpc : c.pc = .restore devices) (hscope : s.InScope enc (.advance k now))
    (hcurrent : s.Current enc (.advance k now)) (h : s.advance enc k now c = some s') :
    Inv enc s' := by
  obtain ⟨hsize, houtdate⟩ := hscope.2 c hc devices (by simp only [toSet, hpc])
  have hstored := hcurrent c hc
  simp only [hpc, IsCurrent] at hstored
  simp only [advance, hpc, filter_outdate houtdate, hsize] at h
  obtain ⟨htimed, hok⟩ := hs.calls k c hc
  simp only [PcOk, hpc] at hok
  split at h
  next hlarge => cases hlarge
  next =>
  split at h
  next => cases h
  next hwriter =>
  have hnone : s.writer = none := by simpa using hwriter
  cases h
  -- what is set is what was stored
  have hset := stored_encrypt s k { c with pc := .restoreCache devices devices } s.cache (some k)
    hsize
  have hframe : Frame s ({ s with config := enc.encrypt devices, writer := some k }.put k
      { c with pc := .restoreCache devices devices }) k _ :=
    frame_pc hc (by simp [hpc]) (by simp)
  have hquiet : ∀ t, c.wrote = some t → ∃ c₀, s.calls k = some c₀ ∧ c₀.wrote = some t :=
    fun t ht => ⟨c, hc, ht⟩
  refine hs.frame hframe ?_ ?_ (.inr (.inr rfl)) (.inl hnone) (fun _ => .inr ⟨_, _, rfl⟩)
    ⟨htimed.frame hframe, hok.1, ?_, rfl, hset.symm⟩
  · have hbefore := hframe.reflects_quiet hquiet hs.stored
    rw [hset]
    rwa [← hstored] at hbefore
  · intro hsync
    refine (hframe.reflects_quiet hquiet (hs.cache hsync)).of_imp ?_
    intro r _ hr
    rw [hnone] at hr
    cases hr
  · exact hframe.reflects (Nat.le_of_lt htimed.1) hok.2

/-- The cache is written by a call that holds what is stored. -/
theorem Inv.put_cache {pc : Pc} (hs : Inv enc s) (hc : s.calls k = some c)
    {devices : List TrustedDevice} {writer : Option Nat} (hstored : devices = s.stored enc)
    (hwriter : writer = none ∨ writer = s.writer ∧ s.writer ≠ some k)
    (hholder : s.writer = some k ∨ writer = s.writer)
    (hframe : Frame s ({ s with cache := (devices, true), writer := writer }.put k
      { c with pc := pc }) k { c with pc := pc })
    (hpc : PcOk enc ({ s with cache := (devices, true), writer := writer }.put k
      { c with pc := pc }) k { c with pc := pc }) :
    Inv enc ({ s with cache := (devices, true), writer := writer }.put k { c with pc := pc }) := by
  have hquiet : ∀ t, c.wrote = some t → ∃ c₀, s.calls k = some c₀ ∧ c₀.wrote = some t :=
    fun t ht => ⟨c, hc, ht⟩
  obtain ⟨htimed, -⟩ := hs.calls k c hc
  have hafter := hframe.reflects_quiet hquiet hs.stored
  refine hs.frame hframe hafter ?_ ?_ ?_ ?_ ⟨htimed.frame hframe, hpc⟩
  · intro _
    have hcache := hafter.of_imp (Q := fun r => writer ≠ some r) fun _ _ => trivial
    rwa [← hstored] at hcache
  · rcases hwriter with hnone | ⟨hsame, -⟩
    · exact .inl hnone
    · exact .inr (.inl hsame)
  · rcases hholder with hk | hsame
    · exact .inr (.inl hk)
    · exact .inr (.inr ⟨hsame, rfl⟩)
  · intro hk
    rcases hwriter with hnone | ⟨hsame, hfree⟩
    · rw [hnone] at hk
      cases hk
    · exact absurd (hsame.symm.trans hk) hfree

theorem Inv.restoreCache {devices kept : List TrustedDevice} (hs : Inv enc s)
    (hc : s.calls k = some c) (hpc : c.pc = .restoreCache devices kept)
    (h : s.advance enc k now c = some s') : Inv enc s' := by
  simp only [advance, hpc, Option.some.injEq] at h
  subst h
  obtain ⟨htimed, hok⟩ := hs.calls k c hc
  simp only [PcOk, hpc] at hok
  obtain ⟨hwrote, hdevices, hwriter, hkept⟩ := hok
  have hframe : Frame s ({ s with cache := (kept, true), writer := none }.put k
      { c with pc := .fillCache devices }) k _ := frame_pc hc (by simp [hpc]) (by simp)
  exact hs.put_cache hc hkept (.inl rfl) (.inl hwriter) hframe
    ⟨hwrote, hframe.reflects (Nat.le_of_lt htimed.1) hdevices⟩

theorem Inv.fillCache {devices : List TrustedDevice} (hs : Inv enc s) (hc : s.calls k = some c)
    (hpc : c.pc = .fillCache devices) (hcurrent : s.Current enc (.advance k now))
    (h : s.advance enc k now c = some s') : Inv enc s' := by
  have hstored := hcurrent c hc
  simp only [hpc, IsCurrent] at hstored
  simp only [advance, hpc, Option.some.injEq] at h
  subst h
  obtain ⟨htimed, hok⟩ := hs.calls k c hc
  simp only [PcOk, hpc] at hok
  have hfree := hs.free hc (by simp [hpc]) (by simp [hpc])
  have hframe : Frame s ({ s with cache := (devices, true) }.put k
      { c with pc := s.got c devices }) k _ :=
    frame_pc hc (by simp [hpc]) (s.got_now c devices)
  exact hs.put_cache hc hstored (.inr ⟨rfl, hfree⟩) (.inr rfl) hframe
    (PcOk.got hframe htimed hok.1 hok.2)

theorem Inv.setCache {kept : List TrustedDevice} (hs : Inv enc s) (hc : s.calls k = some c)
    (hpc : c.pc = .setCache kept) (h : s.advance enc k now c = some s') : Inv enc s' := by
  simp only [advance, hpc, Option.some.injEq] at h
  subst h
  obtain ⟨-, hok⟩ := hs.calls k c hc
  simp only [PcOk, hpc] at hok
  obtain ⟨hwrote, hmethod, hwriter, hkept⟩ := hok
  have hframe : Frame s ({ s with cache := (kept, true), writer := none }.put k
      { c with pc := .returned s.clock [] }) k _ :=
    frame_pc hc (by simp [hpc]) (by intro t devices h; cases h; rfl)
  refine hs.put_cache hc hkept (.inl rfl) (.inl hwriter) hframe
    ⟨?_, fun hget => absurd hget hmethod, fun _ => hwrote⟩
  exact Nat.lt_succ_self _

/-- Setting what a function makes of the list makes a list that shows what the function did. -/
theorem Reflects.set {c' : Call} {devices changed : List TrustedDevice}
    (h : s.Reflects (fun _ => True) devices) (hframe : Frame s s' k c')
    (hchange : c'.method.change devices = some changed) (hwrote : c'.wrote = some s.clock)
    (hpast : ∀ r m t, s.Wrote r m t → t < s.clock) : s'.Reflects (fun _ => True) changed := by
  have hnew : s'.Wrote k c'.method s.clock := ⟨c', hframe.calls_self, rfl, hwrote⟩
  have hcases : ∀ r m t, s'.Wrote r m t →
      r = k ∧ m = c'.method ∧ t = s.clock ∨ s.Wrote r m t := by
    intro r m t hr
    by_cases hrk : r = k
    · subst hrk
      obtain ⟨c₀, hc₀, rfl, ht⟩ := hr
      rw [hframe.calls_self] at hc₀
      cases hc₀
      rw [hwrote] at ht
      cases ht
      exact .inl ⟨rfl, rfl, rfl⟩
    · exact .inr (hframe.wrote_of_ne hrk hr)
  constructor
  · intro r m t _ hr d hd hremoves
    rcases (Method.mem_change hchange d).mp hd with ⟨hmem, habout⟩ | hadd
    · rcases hcases r m t hr with ⟨-, rfl, -⟩ | hr
      · exact absurd (.inl hremoves) habout
      · obtain ⟨a, m', t', hadd, hadds, hlt⟩ := h.removed r m t trivial hr d hmem hremoves
        exact ⟨a, m', t', hframe.wrote_mono hadd, hadds, hlt⟩
    · rcases hcases r m t hr with ⟨-, rfl, -⟩ | hr
      · rw [hadd] at hremoves
        exact absurd hremoves id
      · exact ⟨k, c'.method, s.clock, hnew, by rw [hadd]; rfl, hpast r m t hr⟩
  · intro a d t _ ha
    rcases hcases a _ t ha with ⟨-, hadd, -⟩ | ha
    · exact .inl ((Method.mem_change hchange d).mpr (.inr hadd.symm))
    · rcases h.added a d t trivial ha with hmem | ⟨b, m', t', hb, habout, hlt⟩
      · by_cases habout : c'.method.About d.hwid
        · exact .inr ⟨k, _, _, hnew, habout, hpast a _ t ha⟩
        · exact .inl ((Method.mem_change hchange d).mpr (.inl ⟨hmem, habout⟩))
      · exact .inr ⟨b, m', t', hframe.wrote_mono hb, habout, hlt⟩

theorem Inv.past (hs : Inv enc s) {r : Nat} {m : Method} {t : Nat} (hr : s.Wrote r m t) :
    t < s.clock := by
  obtain ⟨c, hc, -, ht⟩ := hr
  exact ((hs.calls r c hc).1.2 t ht).2

theorem Inv.set {devices : List TrustedDevice} (hs : Inv enc s) (hc : s.calls k = some c)
    (hpc : c.pc = .set devices) (hscope : s.InScope enc (.advance k now))
    (hcurrent : s.Current enc (.advance k now)) (h : s.advance enc k now c = some s') :
    Inv enc s' := by
  have hread := hcurrent c hc
  simp only [hpc, IsCurrent] at hread
  obtain ⟨htimed, hok⟩ := hs.calls k c hc
  simp only [PcOk, hpc] at hok
  cases hchange : c.method.change devices with
  | none => simp only [advance, hpc, hchange, reduceCtorEq] at h
  | some changed =>
  obtain ⟨hsize, houtdate⟩ := hscope.2 c hc changed (by simp only [toSet, hpc, hchange])
  simp only [advance, hpc, hchange, filter_outdate houtdate, hsize] at h
  split at h
  next hlarge => cases hlarge
  next =>
  split at h
  next => cases h
  next hwriter =>
  have hnone : s.writer = none := by simpa using hwriter
  cases h
  have hset := stored_encrypt s k { c with pc := .setCache changed, wrote := some s.clock } s.cache
    (some k) hsize
  have hframe : Frame s ({ s with config := enc.encrypt changed, writer := some k }.put k
      { c with pc := .setCache changed, wrote := some s.clock }) k
      { c with pc := .setCache changed, wrote := some s.clock } := by
    refine frame_put hc (by simp [hpc]) ?_ ?_ ?_ ?_
    · rfl
    · rfl
    · intro t ht
      rw [hok] at ht
      cases ht
    · intro t devices h
      cases h
  rw [Method.change_congr hread] at hchange
  refine hs.frame hframe ?_ ?_ (.inr (.inr rfl)) (.inl hnone) (fun _ => .inl ⟨_, rfl⟩)
    ⟨⟨?_, ?_⟩, ⟨_, rfl⟩, ?_, rfl, hset.symm⟩
  · rw [hset]
    exact hs.stored.set hframe hchange rfl fun _ _ _ hr => hs.past hr
  · -- the cache still shows what every other call did
    intro hsync
    refine (hs.cache hsync).mono (fun _ _ _ => hframe.wrote_mono) ?_
    intro r m t hr hwrote
    have hrk : r ≠ k := fun hrk => hr (by rw [hrk]; rfl)
    exact ⟨by rw [hnone]; exact (Option.some_ne_none r).symm, hframe.wrote_of_ne hrk hwrote⟩
  · exact Nat.lt_succ_of_lt htimed.1
  · intro t ht
    cases ht
    exact ⟨htimed.1, Nat.lt_succ_self _⟩
  · intro hget
    rw [show c.method = .getTrustedDevices from hget] at hchange
    cases hchange

/-- A call begins. -/
theorem Inv.start {method : Method} (hs : Inv enc s) (hk : s.calls k = none) :
    Inv enc (s.put k ⟨method, first method, s.clock, none⟩) := by
  have hno : ∀ {p : Prop} (c₀ : Call), s.calls k = some c₀ → p := by
    intro p c₀ hc₀
    rw [hk] at hc₀
    cases hc₀
  have hpc : first method = .readCache ∨ first method = .set [] := by
    cases method with
    | clearTrustedDevices => exact .inr rfl
    | _ => exact .inl rfl
  have hframe : Frame s (s.put k ⟨method, first method, s.clock, none⟩) k
      ⟨method, first method, s.clock, none⟩ := by
    refine ⟨rfl, rfl, fun c₀ => hno c₀, fun c₀ => hno c₀, ?_⟩
    intro t devices h
    rcases hpc with hpc | hpc <;> rw [hpc] at h <;> cases h
  have hquiet : ∀ t, (none : Option Nat) = some t →
      ∃ c₀, s.calls k = some c₀ ∧ c₀.wrote = some t := by
    intro t ht
    cases ht
  refine hs.frame hframe (hframe.reflects_quiet hquiet hs.stored)
    (fun hsync => hframe.reflects_quiet hquiet (hs.cache hsync)) (.inr (.inl rfl))
    (.inr (.inr ⟨rfl, rfl⟩)) ?_ ⟨⟨Nat.lt_succ_self _, ?_⟩, ?_⟩
  · intro hw
    obtain ⟨c, hc, -⟩ := hs.writer k hw
    exact hno c hc
  · intro t ht
    cases ht
  · rcases hpc with hpc | hpc
    · rw [hpc]
      exact rfl
    · rw [hpc]
      exact rfl

theorem Inv.init (h : s.Starts) : Inv enc s := by
  obtain ⟨hcache, hwriter, hcalls, hclock⟩ := h
  have hno : ∀ {p : Prop} k c, s.calls k = some c → p := by
    intro p k c hc
    rw [hcalls] at hc
    cases hc
  refine ⟨⟨?_, ?_⟩, ?_, ?_, fun k c hc => hno k c hc⟩
  · intro r m t _ hr
    obtain ⟨c, hc, -⟩ := hr
    exact hno r c hc
  · intro a d t _ ha
    obtain ⟨c, hc, -⟩ := ha
    exact hno a c hc
  · intro hsync
    rw [hcache] at hsync
    cases hsync
  · intro w hw
    rw [hwriter] at hw
    cases hw

/-- One step, in scope and current. -/
theorem Inv.next {step : DeviceStep} (hs : Inv enc s) (hscope : s.InScope enc step)
    (hcurrent : s.Current enc step) (h : s.next enc step = some s') : Inv enc s' := by
  cases step with
  | start k method =>
    cases hk : s.calls k with
    | some c => simp only [Devices.next, hk, reduceCtorEq] at h
    | none =>
      simp only [Devices.next, hk, Option.some.injEq] at h
      subst h
      exact hs.start hk
  | advance k now =>
    cases hk : s.calls k with
    | none => simp only [Devices.next, hk, reduceCtorEq] at h
    | some c =>
      simp only [Devices.next, hk] at h
      cases hpc : c.pc with
      | readCache => exact hs.readCache hk hpc h
      | readConfig => exact hs.readConfig hk hpc hscope h
      | restore devices => exact hs.restore hk hpc hscope hcurrent h
      | restoreCache devices kept => exact hs.restoreCache hk hpc h
      | fillCache devices => exact hs.fillCache hk hpc hcurrent h
      | set devices => exact hs.set hk hpc hscope hcurrent h
      | setCache kept => exact hs.setCache hk hpc h
      | returned t devices => simp only [advance, hpc, reduceCtorEq] at h

/-! ## What a call gets -/

theorem Inv.revoked (hs : Inv enc s) : s.Revoked := by
  intro g get tg devices r removal tr removed hg hget hgpc hr hrpc hlt d hd hremoves
  have hgok := (hs.calls g get hg).2
  simp only [PcOk, hgpc] at hgok
  have hrok := hs.calls r removal hr
  have hreturned := hrok.2
  simp only [PcOk, hrpc] at hreturned
  obtain ⟨t, ht⟩ := hreturned.2.2 (by intro hm; rw [hm] at hremoves; exact hremoves)
  obtain ⟨a, m, t', ⟨add, ha, rfl, hadd⟩, hadds, hafter⟩ :=
    (hgok.2.1 hget).removed r _ t ⟨removal, tr, removed, hr, hrpc, hlt⟩ ⟨removal, hr, rfl, ht⟩
      d hd hremoves
  exact ⟨a, add, t', ha, hadds, hadd, Nat.lt_trans (hrok.1.2 t ht).1 hafter⟩

theorem Inv.kept (hs : Inv enc s) : s.Kept := by
  intro g get tg devices a add d ta added hg hget hgpc ha hmethod hapc hlt
  have hgok := (hs.calls g get hg).2
  simp only [PcOk, hgpc] at hgok
  have haok := (hs.calls a add ha).2
  simp only [PcOk, hapc] at haok
  obtain ⟨t, ht⟩ := haok.2.2 (by rw [hmethod]; exact Method.noConfusion)
  rcases (hgok.2.1 hget).added a d t ⟨add, ta, added, ha, hapc, hlt⟩ ⟨add, ha, hmethod, ht⟩ with
    hd | ⟨b, m, t', ⟨about, hb, rfl, hwrote⟩, habout, hafter⟩
  · exact .inl hd
  · exact .inr ⟨b, about, t, t', hb, habout, ht, hwrote, hafter⟩

/-- **A revoked device stays revoked, and an added one is not lost**, while every call writes what
is current. -/
theorem revoked_of_current (enc : Encoding κ) {steps : List DeviceStep} {s : Devices κ}
    (h : ((system enc).restrict fun s step => s.InScope enc step ∧ s.Current enc step).Run
      steps s) : s.Revoked ∧ s.Kept := by
  have hinv : Inv enc s := by
    refine h.invariant (I := Inv enc) Inv.init ?_
    intro s step s' hs hstep
    exact hs.next hstep.1.1 hstep.1.2 hstep.2
  exact ⟨hinv.revoked, hinv.kept⟩

end

/-! ## Two calls at once -/

/-- Nothing is encrypted, and no list is too large. -/
def plain : Encoding (Option (List TrustedDevice)) where
  tooLarge _ := false
  encrypt := some
  decrypt
    | some devices => (devices, true, false)
    | none => ([], false, false)
  decrypt_encrypt _ _ := rfl

def deviceA : TrustedDevice := ⟨[1], 0, "a", "", ""⟩

def deviceB : TrustedDevice := ⟨[2], 0, "b", "", ""⟩

/-- The devices are asked for while one of them is removed, and again later. -/
def removing : List DeviceStep :=
  [.start 0 .getTrustedDevices, .advance 0 0, .advance 0 0, .advance 0 0,
    .start 1 (.removeTrustedDevices [[1]]), .advance 1 0, .advance 1 0,
    .start 2 .getTrustedDevices, .advance 2 0, .advance 1 0,
    .start 3 .getTrustedDevices, .advance 3 0]

/-- These devices are stored, and nothing is cached. -/
def storing (devices : List TrustedDevice) : Devices (Option (List TrustedDevice)) :=
  ⟨([], false), some devices, none, fun _ => none, 0⟩

theorem starts_storing (devices : List TrustedDevice) : (storing devices).Starts :=
  ⟨rfl, rfl, rfl, rfl⟩

theorem revoked_of_current_removing :
    ∃ s, ((system plain).restrict fun s step => s.InScope plain step ∧ s.Current plain step).Run
        removing s ∧
      s.calls 3 = some ⟨.getTrustedDevices, .returned 11 [deviceB], 10, none⟩ ∧
        s.Revoked ∧ s.Kept := by
  have hrun : ((system plain).restrict fun s step =>
      s.InScope plain step ∧ s.Current plain step).Run removing _ :=
    .of_follow (starts_storing [deviceA, deviceB]) rfl
  exact ⟨_, hrun, rfl, revoked_of_current plain hrun⟩

/-- A device is removed while another is being added: the second call writes it back, with nobody
adding it. -/
theorem not_revoked : ¬ ∀ (κ : Type) (enc : Encoding κ) (s : Devices κ),
    ((system enc).restrict (InScope enc)).Reachable s → s.Revoked ∧ s.Kept := by
  intro h
  have hrun : ((system plain).restrict (InScope plain)).Run
      [.start 0 (.addTrustedDevice deviceB), .advance 0 0, .advance 0 0, .advance 0 0,
        .start 1 (.removeTrustedDevices [[1]]), .advance 1 0, .advance 1 0, .advance 1 0,
        .advance 0 0, .advance 0 0, .start 2 .getTrustedDevices, .advance 2 0] _ :=
    .of_follow (starts_storing [deviceA]) rfl
  obtain ⟨a, add, t, ha, hadds, -⟩ := (h _ plain _ ⟨_, hrun⟩).1 2 _ _ _ 1 _ _ _ rfl rfl rfl rfl rfl
    (by decide) deviceA (by decide) (by decide)
  rcases a with _ | _ | _ | a
  · cases ha
    revert hadds
    decide
  · cases ha
    exact hadds
  · cases ha
    exact hadds
  · cases ha

end Devices

end HopToDesk.Config
