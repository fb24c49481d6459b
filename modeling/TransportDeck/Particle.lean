import TransportDeck.Table
import TransportDeck.Text.Blank

namespace TransportDeck

inductive Particle
  | neutron | photon | electron | negativeMuon | antiNeutron | electronNeutrino | muonNeutrino
  | positron | proton | lambdaBaryon | posSigmaBaryon | negSigmaBaryon | xiBaryon | negXiBaryon
  | omegaBaryon | posMuon | antiElectronNeutrino | antiMuonNeutrino | antiProton | posPion
  | neuPion | posKaon | shortKaon | longKaon | antiLambdaBaryon | antiPosSigmaBaryon
  | antiNegSigmaBaryon | antiNeuXiBaryon | posXiBaryon | antiOmega | deuteron | triton | helion
  | alpha | negPion | negKaon | heavyIon
  deriving DecidableEq, Repr, Inhabited

namespace Particle

def all : List Particle :=
  [neutron, photon, electron, negativeMuon, antiNeutron, electronNeutrino, muonNeutrino,
    positron, proton, lambdaBaryon, posSigmaBaryon, negSigmaBaryon, xiBaryon, negXiBaryon,
    omegaBaryon, posMuon, antiElectronNeutrino, antiMuonNeutrino, antiProton, posPion, neuPion,
    posKaon, shortKaon, longKaon, antiLambdaBaryon, antiPosSigmaBaryon, antiNegSigmaBaryon,
    antiNeuXiBaryon, posXiBaryon, antiOmega, deuteron, triton, helion, alpha, negPion, negKaon,
    heavyIon]

def id (p : Particle) : Nat :=
  p.ctorIdx + 1

def designator : Particle → Char
  | neutron => 'n'
  | photon => 'p'
  | electron => 'e'
  | negativeMuon => '|'
  | antiNeutron => 'q'
  | electronNeutrino => 'u'
  | muonNeutrino => 'v'
  | positron => 'f'
  | proton => 'h'
  | lambdaBaryon => 'l'
  | posSigmaBaryon => '+'
  | negSigmaBaryon => '-'
  | xiBaryon => 'x'
  | negXiBaryon => 'y'
  | omegaBaryon => 'o'
  | posMuon => '!'
  | antiElectronNeutrino => '<'
  | antiMuonNeutrino => '>'
  | antiProton => 'g'
  | posPion => '/'
  | neuPion => 'z'
  | posKaon => 'k'
  | shortKaon => '%'
  | longKaon => '^'
  | antiLambdaBaryon => 'b'
  | antiPosSigmaBaryon => '_'
  | antiNegSigmaBaryon => '~'
  | antiNeuXiBaryon => 'c'
  | posXiBaryon => 'w'
  | antiOmega => '@'
  | deuteron => 'd'
  | triton => 't'
  | helion => 's'
  | alpha => 'a'
  | negPion => '*'
  | negKaon => '?'
  | heavyIon => '#'

def name : Particle → String
  | neutron => "Neutron"
  | photon => "Photon"
  | electron => "Electron"
  | negativeMuon => "NegativeMuon"
  | antiNeutron => "AntiNeutron"
  | electronNeutrino => "ElectronNeutrino"
  | muonNeutrino => "MuonNeutrino"
  | positron => "Positron"
  | proton => "Proton"
  | lambdaBaryon => "LambdaBaryon"
  | posSigmaBaryon => "PosSigmaBaryon"
  | negSigmaBaryon => "NegSigmaBaryon"
  | xiBaryon => "XiBaryon"
  | negXiBaryon => "NegXiBaryon"
  | omegaBaryon => "OmegaBaryon"
  | posMuon => "PosMuon"
  | antiElectronNeutrino => "AntiElectronNeutrino"
  | antiMuonNeutrino => "AntiMuonNeutrino"
  | antiProton => "AntiProton"
  | posPion => "PosPion"
  | neuPion => "NeuPion"
  | posKaon => "PosKaon"
  | shortKaon => "ShortKaon"
  | longKaon => "LongKaon"
  | antiLambdaBaryon => "AntiLambdaBaryon"
  | antiPosSigmaBaryon => "AntiPosSigmaBaryon"
  | antiNegSigmaBaryon => "AntiNegSigmaBaryon"
  | antiNeuXiBaryon => "AntiNeuXiBaryon"
  | posXiBaryon => "PosXiBaryon"
  | antiOmega => "AntiOmega"
  | deuteron => "Deuteron"
  | triton => "Triton"
  | helion => "Helion"
  | alpha => "Alpha"
  | negPion => "NegPion"
  | negKaon => "NegKaon"
  | heavyIon => "HeavyIon"

def ofDesignator? (c : Char) : Option Particle :=
  all.find? fun p => p.designator == c.toLower

instance : LT Particle := ⟨fun p q => p.id < q.id⟩

instance : DecidableLT Particle := fun p q => inferInstanceAs (Decidable (p.id < q.id))

/-- The list of all particles is indexed by their numbers. -/
theorem getElem?_all_id (p : Particle) : all[p.id - 1]? = some p := by
  cases p <;> rfl

theorem id_injective {p q : Particle} (h : p.id = q.id) : p = q := by
  have hp := getElem?_all_id p
  rw [h, getElem?_all_id q] at hp
  exact (Option.some.inj hp).symm

instance : StrictOrder Particle where
  irrefl p := Nat.lt_irrefl p.id
  trans h h' := Nat.lt_trans h h'
  tri p q := by
    rcases Nat.lt_trichotomy p.id q.id with h | h | h
    · exact .inl h
    · exact .inr (.inl (id_injective h))
    · exact .inr (.inr h)

def addNew (known more : List Particle) : List Particle :=
  more.foldl (fun ps p => if ps.contains p then ps else ps ++ [p]) known

def ofItem? (item : List Char) : Option Particle :=
  match Text.trim item with
  | [c] => ofDesignator? c
  | _ => none

def ofList? (text : String) : Option (List Particle) :=
  ((text.toList.splitOn ',').mapM ofItem?).map (addNew [])

end Particle

end TransportDeck
