import Mathlib.Algebra.BigOperators.Group.Finset.Basic
import Mathlib.Algebra.BigOperators.Group.Finset.Piecewise
import Mathlib.Algebra.BigOperators.Group.Finset.Sigma
import Mathlib.Algebra.GroupWithZero.Nat
import Mathlib.Algebra.Order.Group.Multiset
import Mathlib.Data.Fintype.Basic
import Mathlib.Logic.Function.Basic
import Mathlib.Logic.Relation

/-!
# Questions and answers by post

Clients `C` live at places `V`, and at every place there is a server.  A client puts a
question to a server and waits for a letter; it may put the question again, once, while it
waits.  Letters are handed in at the counter of a place and taken there in order.  Between
places they travel in any order, and none is lost.  A server answers every question on its
desk.

A client does not look at the sender of the letter it gets.  Whether it is the answer to the
question depends on what else is on its way: `Post.anywhere` counts letters in all places at
once, and every step changes that count by what it writes and what it reads.  `Ledger` sums
this up for each client.
-/

namespace OnDemandRouting.Lib

variable {C V A : Type*}

/-- The question of `c` to the server at `v`, or the answer `a` of that server. -/
inductive Letter (C V A : Type*)
  | ask (c : C) (v : V)
  | answer (c : C) (v : V) (a : A)
  deriving DecidableEq

namespace Letter

/-- The client at one end of the letter. -/
def client : Letter C V A → C
  | .ask c _ => c
  | .answer c _ _ => c

/-- The server at the other. -/
def server : Letter C V A → V
  | .ask _ v => v
  | .answer _ v _ => v

/-- Where the letter has to go. -/
def dest (home : C → V) : Letter C V A → V
  | .ask _ v => v
  | .answer c _ _ => home c

@[simp] theorem client_ask (c : C) (v : V) : (ask c v : Letter C V A).client = c := rfl

@[simp] theorem client_answer (c : C) (v : V) (a : A) : (answer c v a).client = c := rfl

@[simp] theorem server_ask (c : C) (v : V) : (ask c v : Letter C V A).server = v := rfl

@[simp] theorem server_answer (c : C) (v : V) (a : A) : (answer c v a).server = v := rfl

end Letter

/-- What a client does.  While `armed` it may still put its question again. -/
inductive Status (V A : Type*)
  | idle
  | waiting (v : V) (armed : Bool)
  | replied (v : V) (armed : Bool) (sender : V) (a : A)
  | gone

/-- The letters a client waits for. -/
def Status.due : Status V A → ℕ
  | .waiting _ _ => 1
  | _ => 0

/-- The letters a client waits for from `v`. -/
def Status.dueFrom [DecidableEq V] (v : V) : Status V A → ℕ
  | .waiting w _ => if w = v then 1 else 0
  | _ => 0

@[simp] theorem Status.due_waiting (v : V) (armed : Bool) :
    (waiting v armed : Status V A).due = 1 := rfl

@[simp] theorem Status.dueFrom_waiting [DecidableEq V] (v w : V) (armed : Bool) :
    (waiting w armed : Status V A).dueFrom v = if w = v then 1 else 0 := rfl

theorem Status.dueFrom_eq_zero [DecidableEq V] {st : Status V A} (h : st.due = 0) (v : V) :
    st.dueFrom v = 0 := by
  cases st with
  | waiting w armed => simp at h
  | idle => rfl
  | replied _ _ _ _ => rfl
  | gone => rfl

/-- A state.  `retried` counts how often a client put its question again while it waited, and
`told` lists who was asked, who answered and what. -/
structure Post (C V A : Type*) where
  out : V → List (Letter C V A)
  mail : Multiset (Letter C V A)
  desk : V → List C
  box : C → List (V × A)
  status : C → Status V A
  retried : C → ℕ
  told : List (C × V × V × A)

/-- Nobody has asked yet. -/
def Post.initial : Post C V A where
  out := fun _ => []
  mail := 0
  desk := fun _ => []
  box := fun _ => []
  status := fun _ => .idle
  retried := fun _ => 0
  told := []

namespace Post

variable [DecidableEq C] [DecidableEq V] [DecidableEq A]

/-- Hand in a letter at `v`. -/
def write (t : Post C V A) (v : V) (l : Letter C V A) : Post C V A :=
  { t with out := Function.update t.out v (t.out v ++ [l]) }

/-- A letter arrives. -/
def arrive (t : Post C V A) : Letter C V A → Post C V A
  | .ask c v => { t with desk := Function.update t.desk v (t.desk v ++ [c]) }
  | .answer c v a => { t with box := Function.update t.box c (t.box c ++ [(v, a)]) }

def setStatus (t : Post C V A) (c : C) (st : Status V A) : Post C V A :=
  { t with status := Function.update t.status c st }

def setOut (t : Post C V A) (v : V) (ls : List (Letter C V A)) : Post C V A :=
  { t with out := Function.update t.out v ls }

def setDesk (t : Post C V A) (v : V) (cs : List C) : Post C V A :=
  { t with desk := Function.update t.desk v cs }

def setBox (t : Post C V A) (c : C) (xs : List (V × A)) : Post C V A :=
  { t with box := Function.update t.box c xs }

/-- What can happen, where `home` is the place of each client. -/
inductive Step (home : C → V) (t : Post C V A) : Post C V A → Prop
  | ask {c : C} {v : V} (hst : t.status c = .idle) :
      Step home t ((t.setStatus c (.waiting v true)).write (home c) (.ask c v))
  | leave {c : C} (hst : t.status c = .idle) : Step home t (t.setStatus c .gone)
  /-- The client loses patience. -/
  | retry {c : C} {v : V} (hst : t.status c = .waiting v true) :
      Step home t (({ t with retried := Function.update t.retried c (t.retried c + 1) }.setStatus c
        (.waiting v false)).write (home c) (.ask c v))
  /-- It has a letter but does not notice, and asks again. -/
  | overlook {c : C} {v w : V} {a : A} (hst : t.status c = .replied v true w a) :
      Step home t ((t.setStatus c (.waiting v false)).write (home c) (.ask c v))
  | dispatch {v : V} {l : Letter C V A} {rest : List (Letter C V A)} (hout : t.out v = l :: rest)
      (hdest : l.dest home ≠ v) : Step home t { t.setOut v rest with mail := l ::ₘ t.mail }
  | inside {v : V} {l : Letter C V A} {rest : List (Letter C V A)} (hout : t.out v = l :: rest)
      (hdest : l.dest home = v) : Step home t ((t.setOut v rest).arrive l)
  | hand {l : Letter C V A} (hmail : l ∈ t.mail) :
      Step home t ({ t with mail := t.mail.erase l }.arrive l)
  | serve {v : V} {c : C} {rest : List C} {a : A} (hdesk : t.desk v = c :: rest) :
      Step home t ((t.setDesk v rest).write v (.answer c v a))
  | read {c : C} {v w : V} {armed : Bool} {a : A} {rest : List (V × A)}
      (hst : t.status c = .waiting v armed) (hbox : t.box c = (w, a) :: rest) :
      Step home t ((t.setBox c rest).setStatus c (.replied v armed w a))
  | finish {c : C} {v w : V} {armed : Bool} {a : A} (hst : t.status c = .replied v armed w a) :
      Step home t ({ t with told := t.told ++ [(c, v, w, a)] }.setStatus c .idle)

/-! ## Letters everywhere -/

variable [Fintype C] [Fintype V]

/-- The letters with property `q`, wherever they are. -/
def anywhere (q : Letter C V A → Bool) (t : Post C V A) : ℕ :=
  ∑ v, (t.out v).countP q + t.mail.countP (q · = true) +
    ∑ v, (t.desk v).countP (fun c => q (.ask c v)) +
    ∑ c, (t.box c).countP fun x => q (.answer c x.1 x.2)

end Post

/-- A sum in which one term changes. -/
theorem sum_update_add {ι M β : Type*} [Fintype ι] [DecidableEq ι] [AddCommMonoid M]
    (f : ι → β) (i : ι) (x : β) (w : ι → β → M) :
    ∑ j, w j (Function.update f i x j) + w i (f i) = ∑ j, w j (f j) + w i x := by
  have hrest : ∑ j ∈ Finset.univ.erase i, w j (Function.update f i x j) =
      ∑ j ∈ Finset.univ.erase i, w j (f j) := by
    apply Finset.sum_congr rfl
    intro j hj
    rw [Function.update_of_ne (Finset.ne_of_mem_erase hj)]
  rw [← Finset.add_sum_erase _ _ (Finset.mem_univ i), ← Finset.add_sum_erase (Finset.univ)
    (fun j => w j (f j)) (Finset.mem_univ i), hrest, Function.update_self]
  ac_rfl

namespace Post

variable [Fintype C] [Fintype V] {t t' : Post C V A} {q : Letter C V A → Bool} {l : Letter C V A}

section Counts

@[simp] theorem anywhere_setStatus [DecidableEq C] (c : C) (st : Status V A) :
    anywhere q (t.setStatus c st) = anywhere q t := rfl

@[simp] theorem anywhere_retried (f : C → ℕ) : anywhere q { t with retried := f } = anywhere q t :=
  rfl

theorem anywhere_setOut [DecidableEq V] (v : V) (ls : List (Letter C V A)) :
    anywhere q (t.setOut v ls) + (t.out v).countP q = anywhere q t + ls.countP q := by
  have hsum := sum_update_add t.out v ls fun _ ls => ls.countP q
  simp only [anywhere, setOut]
  omega

theorem anywhere_setDesk [DecidableEq V] (v : V) (cs : List C) :
    anywhere q (t.setDesk v cs) + (t.desk v).countP (fun c => q (.ask c v)) =
      anywhere q t + cs.countP fun c => q (.ask c v) := by
  have hsum := sum_update_add t.desk v cs fun v cs => cs.countP fun c => q (.ask c v)
  simp only [anywhere, setDesk]
  omega

theorem anywhere_setBox [DecidableEq C] (c : C) (xs : List (V × A)) :
    anywhere q (t.setBox c xs) + (t.box c).countP (fun x => q (.answer c x.1 x.2)) =
      anywhere q t + xs.countP fun x => q (.answer c x.1 x.2) := by
  have hsum := sum_update_add t.box c xs fun c xs => xs.countP fun x => q (.answer c x.1 x.2)
  simp only [anywhere, setBox]
  omega

@[simp] theorem anywhere_write [DecidableEq V] (v : V) :
    anywhere q (t.write v l) = anywhere q t + if q l then 1 else 0 := by
  have hset := anywhere_setOut (q := q) (t := t) v (t.out v ++ [l])
  rw [List.countP_append, List.countP_singleton] at hset
  change anywhere q (t.setOut v (t.out v ++ [l])) = _
  omega

@[simp] theorem anywhere_arrive [DecidableEq C] [DecidableEq V] :
    anywhere q (t.arrive l) = anywhere q t + if q l then 1 else 0 := by
  cases l with
  | ask c v =>
      have hset := anywhere_setDesk (q := q) (t := t) v (t.desk v ++ [c])
      rw [List.countP_append, List.countP_singleton] at hset
      change anywhere q (t.setDesk v (t.desk v ++ [c])) = _
      omega
  | answer c v a =>
      have hset := anywhere_setBox (q := q) (t := t) c (t.box c ++ [(v, a)])
      rw [List.countP_append, List.countP_singleton] at hset
      change anywhere q (t.setBox c (t.box c ++ [(v, a)])) = _
      dsimp only at hset
      omega

theorem anywhere_take [DecidableEq V] {v : V} {rest : List (Letter C V A)}
    (hout : t.out v = l :: rest) :
    anywhere q (t.setOut v rest) + (if q l then 1 else 0) = anywhere q t := by
  have hset := anywhere_setOut (q := q) (t := t) v rest
  rw [hout, List.countP_cons] at hset
  omega

theorem anywhere_open [DecidableEq C] {c : C} {w : V} {a : A} {rest : List (V × A)}
    (hbox : t.box c = (w, a) :: rest) :
    anywhere q (t.setBox c rest) + (if q (.answer c w a) then 1 else 0) = anywhere q t := by
  have hset := anywhere_setBox (q := q) (t := t) c rest
  rw [hbox, List.countP_cons] at hset
  dsimp only at hset
  omega

theorem anywhere_mail_cons :
    anywhere q { t with mail := l ::ₘ t.mail } = anywhere q t + if q l then 1 else 0 := by
  simp only [anywhere, Multiset.countP_cons]
  omega

theorem anywhere_mail_erase [DecidableEq C] [DecidableEq V] [DecidableEq A] (hmail : l ∈ t.mail) :
    anywhere q { t with mail := t.mail.erase l } + (if q l then 1 else 0) = anywhere q t := by
  rw [← anywhere_mail_cons]
  dsimp only
  rw [Multiset.cons_erase hmail]

theorem anywhere_pos_of_mail (hmail : l ∈ t.mail) (hq : q l = true) : 0 < anywhere q t := by
  classical
  have h := anywhere_mail_erase (q := q) hmail
  rw [if_pos hq] at h
  omega

theorem sum_countP_eq_length [DecidableEq C] {α : Type*} (f : α → C) (xs : List α) :
    ∑ c, xs.countP (fun x => decide (f x = c)) = xs.length := by
  induction xs with
  | nil => simp
  | cons x xs ih => simp [List.countP_cons, Finset.sum_add_distrib, ih]

theorem sum_anywhere_client [DecidableEq C] (t : Post C V A) :
    ∑ c, anywhere (fun l => decide (l.client = c)) t =
      ∑ v, (t.out v).length + t.mail.card + ∑ v, (t.desk v).length + ∑ c, (t.box c).length := by
  have hmail : ∑ c, t.mail.countP (fun l => decide (l.client = c) = true) = t.mail.card := by
    obtain ⟨ls, hls⟩ := Quot.exists_rep t.mail
    have hlen := sum_countP_eq_length Letter.client ls
    rw [← hls]
    simpa using hlen
  have hbox : ∑ c, ∑ c', (t.box c').countP (fun x =>
      decide ((Letter.answer c' x.1 x.2).client = c)) =
      ∑ c, (t.box c).length := by
    rw [Finset.sum_comm]
    apply Finset.sum_congr rfl
    intro c' _
    exact sum_countP_eq_length (fun _ => c') (t.box c')
  have hout : ∑ c, ∑ v, (t.out v).countP (fun l => decide (l.client = c)) =
      ∑ v, (t.out v).length := by
    rw [Finset.sum_comm]
    exact Finset.sum_congr rfl fun v _ => sum_countP_eq_length Letter.client (t.out v)
  have hdesk : ∑ c, ∑ v, (t.desk v).countP (fun c' => decide ((Letter.ask c' v :
      Letter C V A).client = c)) = ∑ v, (t.desk v).length := by
    rw [Finset.sum_comm]
    exact Finset.sum_congr rfl fun v _ => sum_countP_eq_length id (t.desk v)
  simp only [anywhere, Finset.sum_add_distrib]
  rw [hout, hmail, hdesk, hbox]

end Counts

/-! ## The ledger -/

variable [DecidableEq C] [DecidableEq V] {home : C → V}

/-- The account of every client: the letters of `c`, wherever they are, are the one it waits
for and one for each time it has lost patience.  Until that happens the one letter is its
question to the server it asked, or that server's answer. -/
structure Ledger (t : Post C V A) : Prop where
  count : ∀ c, anywhere (fun l => decide (l.client = c)) t = (t.status c).due + t.retried c
  partner : ∀ c, t.retried c = 0 → ∀ v,
    anywhere (fun l => decide (l.client = c ∧ l.server = v)) t = (t.status c).dueFrom v
  replied : ∀ c v armed w a, t.status c = .replied v armed w a → t.retried c = 0 → w = v
  told : ∀ x ∈ t.told, t.retried x.1 = 0 → x.2.2.1 = x.2.1

theorem ledger_initial : Ledger (initial : Post C V A) where
  count := by simp [anywhere, initial, Status.due]
  partner := by simp [anywhere, initial, Status.dueFrom]
  replied := by simp [initial]
  told := by simp [initial]

/-- The letters in the post are those that clients wait for and those of lost patience. -/
theorem Ledger.total (h : Ledger t) :
    ∑ v, (t.out v).length + t.mail.card + ∑ v, (t.desk v).length + ∑ c, (t.box c).length =
      ∑ c, ((t.status c).due + t.retried c) := by
  rw [← sum_anywhere_client]
  exact Finset.sum_congr rfl fun c _ => h.count c

/-- A letter that moves keeps the ledger. -/
theorem Ledger.of_moved (h : Ledger t) (hstatus : t'.status = t.status)
    (hretried : t'.retried = t.retried) (htold : t'.told = t.told)
    (hany : ∀ q : Letter C V A → Bool, (∀ c v a, q (.ask c v) = q (.answer c v a)) →
      anywhere q t' = anywhere q t) : Ledger t' where
  count c := by
    rw [hany _ fun _ _ _ => rfl, hstatus, hretried]
    exact h.count c
  partner c hc v := by
    rw [hretried] at hc
    rw [hany _ fun _ _ _ => rfl, hstatus]
    exact h.partner c hc v
  replied := by
    rw [hstatus, hretried]
    exact h.replied
  told := by
    rw [htold, hretried]
    exact h.told

/-- A step of `c` alone keeps the ledger if it keeps the account of `c`. -/
theorem Ledger.of_changed (h : Ledger t) (c : C) (st : Status V A)
    (hstatus : t'.status = Function.update t.status c st)
    (hretried : ∀ c' ≠ c, t'.retried c' = t.retried c')
    (hmono : t'.retried c = 0 → t.retried c = 0)
    (hany : ∀ q : Letter C V A → Bool, (∀ l, l.client = c → q l = false) →
      anywhere q t' = anywhere q t)
    (hcount : anywhere (fun l => decide (l.client = c)) t' = st.due + t'.retried c)
    (hpartner : t'.retried c = 0 → ∀ v,
      anywhere (fun l => decide (l.client = c ∧ l.server = v)) t' = st.dueFrom v)
    (hreplied : ∀ v armed w a, st = .replied v armed w a → t'.retried c = 0 → w = v)
    (htold : ∀ x ∈ t'.told, x ∈ t.told ∨ x.1 = c ∧ (t.retried c = 0 → x.2.2.1 = x.2.1)) :
    Ledger t' := by
  have hother : ∀ c' ≠ c, t'.status c' = t.status c' := fun c' hc' => by
    rw [hstatus, Function.update_of_ne hc']
  have hself : t'.status c = st := by rw [hstatus, Function.update_self]
  constructor
  case count =>
    intro c'
    by_cases hc' : c' = c
    · rw [hc', hself]
      exact hcount
    · rw [hother c' hc', hretried c' hc', hany _ fun l hl => by simp [hl, Ne.symm hc']]
      exact h.count c'
  case partner =>
    intro c' hzero v
    by_cases hc' : c' = c
    · subst hc'
      rw [hself]
      exact hpartner hzero v
    · rw [hretried c' hc'] at hzero
      rw [hother c' hc', hany _ fun l hl => by simp [hl, Ne.symm hc']]
      exact h.partner c' hzero v
  case replied =>
    intro c' v armed w a hst hzero
    by_cases hc' : c' = c
    · subst hc'
      rw [hself] at hst
      exact hreplied v armed w a hst hzero
    · rw [hother c' hc'] at hst
      rw [hretried c' hc'] at hzero
      exact h.replied c' v armed w a hst hzero
  case told =>
    intro x hx hzero
    have hzero' : t.retried x.1 = 0 := by
      by_cases hc' : x.1 = c
      · rw [hc'] at hzero ⊢
        exact hmono hzero
      · rw [← hretried x.1 hc']
        exact hzero
    apply (htold x hx).elim
    · intro hold
      exact h.told x hold hzero'
    · intro hnew
      exact hnew.2 (hnew.1 ▸ hzero')

/-- Writing a letter while nothing is due keeps the account, and so does losing patience. -/
theorem Ledger.of_written {c : C} {v : V} {b : Bool} (h : Ledger t) {r : C → ℕ}
    (hretried : ∀ c' ≠ c, r c' = t.retried c')
    (hdue : r c = (t.status c).due + t.retried c) :
    Ledger (({ t with retried := r }.setStatus c (.waiting v b)).write (home c) (.ask c v)) := by
  refine h.of_changed c (.waiting v b) rfl hretried ?_ ?_ ?_ ?_ ?_ ?_
  · intro hzero
    have hzero' : r c = 0 := hzero
    omega
  · intro q hq
    simp [hq (.ask c v) rfl]
  · have hcount := h.count c
    simp only [anywhere_write, anywhere_setStatus, anywhere_retried, hcount, Letter.client_ask,
      decide_true, if_true, Status.due_waiting]
    change _ = 1 + r c
    omega
  · intro hzero w
    have hzero' : r c = 0 := hzero
    have hnone : (t.status c).dueFrom w = 0 := Status.dueFrom_eq_zero (by omega) w
    have hpartner := h.partner c (by omega) w
    simp only [anywhere_write, anywhere_setStatus, anywhere_retried, hpartner, hnone,
      Letter.client_ask, Letter.server_ask, Status.dueFrom_waiting, true_and,
      decide_eq_true_eq, zero_add]
  · intro _ _ _ _ hst
    cases hst
  · intro x hx
    exact .inl hx

/-- A client to whom no letter is due comes to rest. -/
theorem Ledger.of_rested {c : C} {st : Status V A} {told : List (C × V × V × A)} (h : Ledger t)
    (hdue : (t.status c).due = 0) (hst : st = .idle ∨ st = .gone)
    (htold : ∀ x ∈ told, x ∈ t.told ∨ x.1 = c ∧ (t.retried c = 0 → x.2.2.1 = x.2.1)) :
    Ledger ({ t with told := told }.setStatus c st) := by
  have hrest : st.due = 0 := by rcases hst with rfl | rfl <;> rfl
  refine h.of_changed c st rfl (fun _ _ => rfl) id (fun _ _ => rfl) ?_ ?_ ?_ htold
  · have hcount := h.count c
    rw [hdue] at hcount
    rw [hrest]
    exact hcount
  · intro hzero v
    have hpartner := h.partner c hzero v
    rw [Status.dueFrom_eq_zero hdue] at hpartner
    rw [Status.dueFrom_eq_zero hrest]
    exact hpartner
  · rcases hst with rfl | rfl <;> exact fun _ _ _ _ hst' => nomatch hst'

section Open

variable {c : C} {v w : V} {armed : Bool} {a : A} {rest : List (V × A)}

/-- A client that has never lost patience opens the answer of the server it asked. -/
theorem Ledger.sender_eq (h : Ledger t) (hst : t.status c = .waiting v armed)
    (hbox : t.box c = (w, a) :: rest) (hzero : t.retried c = 0) : w = v := by
  have hopen := anywhere_open (q := fun l => decide (l.client = c ∧ l.server = w)) hbox
  rw [h.partner c hzero w, hst] at hopen
  by_contra hne
  simp [Ne.symm hne] at hopen

theorem Ledger.of_opened (h : Ledger t) (hst : t.status c = .waiting v armed)
    (hbox : t.box c = (w, a) :: rest) :
    Ledger ((t.setBox c rest).setStatus c (.replied v armed w a)) := by
  have hopen := fun q => anywhere_open (q := q) hbox
  refine h.of_changed c (.replied v armed w a) rfl (fun _ _ => rfl) id ?_ ?_ ?_ ?_
    (fun x hx => .inl hx)
  · intro q hq
    have hkept := hopen q
    rw [hq (.answer c w a) rfl] at hkept
    exact hkept
  · have hall := hopen fun l => decide (l.client = c)
    rw [h.count c, hst] at hall
    simp only [Letter.client_answer, Status.due, decide_true, if_true] at hall ⊢
    change anywhere _ (t.setBox c rest) = 0 + t.retried c
    omega
  · intro hzero u
    have hall := hopen fun l => decide (l.client = c ∧ l.server = u)
    rw [h.partner c hzero u, hst, h.sender_eq hst hbox hzero] at hall
    simp only [Letter.client_answer, Letter.server_answer, Status.dueFrom, true_and,
      decide_eq_true_eq] at hall ⊢
    change anywhere _ (t.setBox c rest) = 0
    omega
  · rintro _ _ _ _ ⟨⟩ hzero
    exact h.sender_eq hst hbox hzero

end Open

variable [DecidableEq A]

theorem ledger_step (h : Ledger t) (hs : Step home t t') : Ledger t' := by
  cases hs with
  | ask hst =>
      apply h.of_written (r := t.retried) (fun _ _ => rfl)
      rw [hst]
      exact (Nat.zero_add _).symm
  | @retry c v hst =>
      apply h.of_written
      · intro c' hc'
        rw [Function.update_of_ne hc']
      · rw [Function.update_self, hst]
        exact Nat.add_comm _ _
  | overlook hst =>
      apply h.of_written (r := t.retried) (fun _ _ => rfl)
      rw [hst]
      exact (Nat.zero_add _).symm
  | @leave c hst =>
      have hdue : (t.status c).due = 0 := by rw [hst]; rfl
      have hrested : Ledger ({ t with told := t.told }.setStatus c .gone) :=
        h.of_rested hdue (.inr rfl) fun x hx => .inl hx
      exact hrested
  | @dispatch v l rest hout hdest =>
      refine h.of_moved rfl rfl rfl fun q _ => ?_
      have htake := anywhere_take (q := q) hout
      have hmail := anywhere_mail_cons (q := q) (t := t.setOut v rest) (l := l)
      exact hmail.trans htake
  | @inside v l rest hout hdest =>
      have htake := fun q => anywhere_take (q := q) hout
      cases l <;> refine h.of_moved rfl rfl rfl fun q _ => ?_ <;> rw [anywhere_arrive, htake]
  | @hand l hmail =>
      have herase := fun q => anywhere_mail_erase (q := q) hmail
      cases l <;> refine h.of_moved rfl rfl rfl fun q _ => ?_ <;> rw [anywhere_arrive, herase]
  | @serve v c rest a hdesk =>
      refine h.of_moved rfl rfl rfl fun q hq => ?_
      have hset := anywhere_setDesk (q := q) (t := t) v rest
      rw [hdesk, List.countP_cons] at hset
      rw [anywhere_write, ← hq]
      omega
  | read hst hbox => exact h.of_opened hst hbox
  | @finish c v w armed a hst =>
      have hdue : (t.status c).due = 0 := by rw [hst]; rfl
      refine h.of_rested hdue (.inl rfl) fun x hx => ?_
      apply (List.mem_append.mp hx).imp id
      intro hlast
      rw [List.mem_singleton.mp hlast]
      exact ⟨rfl, h.replied c v armed w a hst⟩

/-- The ledger holds in every run. -/
theorem ledger_of_run (hrun : Relation.ReflTransGen (Step home) initial t) : Ledger t := by
  induction hrun with
  | refl => exact ledger_initial
  | tail _ hs ih => exact ledger_step ih hs

end Post

end OnDemandRouting.Lib
