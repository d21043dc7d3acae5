import Mathlib
import Anchor.SsvTypes.MsgId

/-!
# The fork schedule

Which fork of the network is active in an epoch, and the domain its messages
carry.  A schedule holds at most one configuration per fork, in the order of the
forks, and one of them is active from the first epoch on.
-/

namespace Anchor

inductive Fork where
  | alan
  | boole
deriving DecidableEq

namespace Fork

def index : Fork → ℕ
  | alan => 0
  | boole => 1

theorem index_injective : Function.Injective index := by
  intro a b h
  cases a <;> cases b <;> first | rfl | cases h

instance : LinearOrder Fork := LinearOrder.lift' index index_injective

end Fork

inductive ForkName where
  | base
  | altair
  | bellatrix
  | capella
  | deneb
  | electra
  | fulu
  | gloas
  | heze
deriving DecidableEq

namespace ForkName

def index : ForkName → ℕ
  | base => 0
  | altair => 1
  | bellatrix => 2
  | capella => 3
  | deneb => 4
  | electra => 5
  | fulu => 6
  | gloas => 7
  | heze => 8

theorem index_injective : Function.Injective index := by
  intro a b h
  cases a <;> cases b <;> first | rfl | cases h

instance : LinearOrder ForkName := LinearOrder.lift' index index_injective

def gloasEnabled (name : ForkName) : Bool := decide (.gloas ≤ name)

end ForkName

structure ForkConfig where
  fork : Fork
  epoch : ℕ
  domainType : DomainType
deriving DecidableEq

structure ForkSchedule where
  configs : List ForkConfig
  sorted : configs.Pairwise (fun a b => a.fork < b.fork)
  genesis : ∃ c ∈ configs, c.epoch = 0

namespace ForkSchedule

variable (schedule : ForkSchedule)

theorem active_ne_nil (epoch : ℕ) : schedule.configs.filter (·.epoch ≤ epoch) ≠ [] := by
  obtain ⟨c, hc, hzero⟩ := schedule.genesis
  exact List.ne_nil_of_mem (List.mem_filter.mpr ⟨hc, by simp [hzero]⟩)

def activeForkConfig (epoch : ℕ) : ForkConfig :=
  (schedule.configs.filter (·.epoch ≤ epoch)).getLast (schedule.active_ne_nil epoch)

def activeFork (epoch : ℕ) : Fork := (schedule.activeForkConfig epoch).fork

def domainType (fork : Fork) : Option DomainType :=
  (schedule.configs.find? (·.fork = fork)).map ForkConfig.domainType

end ForkSchedule

end Anchor
