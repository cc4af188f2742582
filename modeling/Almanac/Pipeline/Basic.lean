import Almanac.Cache.Key
import Almanac.Fetch.Basic
import Almanac.Ranking.View

/-!
# The pipeline

A pipeline answers orders for reports: it fetches what is known about a birth, ranks
the chart for the reference date of the order, and puts the report together.  It has
one engine, one cache and one set of permits for all orders.
-/

namespace Almanac

structure Order where
  profile : Profile
  reference : Date
  /-- The milliseconds that whoever orders can wait. -/
  budget : Option Nat := none

/-- A pipeline with the states of its store and its engine. -/
structure Pipeline (σ ε : Type) where
  shape : Ranking.Shape
  /-- The milliseconds that an order may take. -/
  deadline : Nat
  fetches : Fetches σ
  engine : ε
  /-- The cache's clock, which moves on with every step. -/
  clock : Nat := 0

namespace Pipeline

variable {σ ε : Type}

def ofSettings (s : Settings) (cache : Cache σ) (engine : ε) : Pipeline σ ε where
  shape := s.ranking
  deadline := s.pipeline.deadlineMillis.toNat
  fetches :=
    { flights := ⟨cache, []⟩
      permits := Fetches.permitsFor s.pipeline.maxFetches.toNat }
  engine := engine

def cache (p : Pipeline σ ε) : Cache σ := p.fetches.flights.cache

def onCache (p : Pipeline σ ε) (cache : Cache σ) : Pipeline σ ε :=
  { p with fetches := { p.fetches with flights := p.fetches.flights.onCache cache } }

/-- The milliseconds that an order may take: its own budget counts if it is shorter
than the pipeline's deadline. -/
def deadlineFor (p : Pipeline σ ε) (o : Order) : Nat :=
  match o.budget with
  | none => p.deadline
  | some budget => min budget p.deadline

def step (S : Store σ) (p : Pipeline σ ε) (move : Fetches.Move) : Pipeline σ ε :=
  { p with fetches := p.fetches.step S p.clock move, clock := p.clock + 1 }

def startFetch (S : Store σ) (p : Pipeline σ ε) (o : Order) : Pipeline σ ε :=
  p.step S (.fetch (Cache.key o.profile p.shape))

def report (p : Pipeline σ ε) (o : Order) (b : Bundle) : Except Failure Report :=
  match Ranking.rank b.chart o.profile.birthDate o.reference p.shape with
  | .error e => .error e
  | .ok view => .ok ⟨view, b.chart.pillars, b.balance, b.pillars⟩

/-- No further chart is fetched, and the cache is shut down. -/
def shutdown (S : Store σ) (p : Pipeline σ ε) : Pipeline σ ε := p.step S .shutdown

end Pipeline

end Almanac
