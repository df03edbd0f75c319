import Phrasebook.Main
import Phrasebook.InMemory
import Phrasebook.Proofs.Utterance
import Phrasebook.Proofs.Template
import Phrasebook.Proofs.Phrase
import Phrasebook.Proofs.Compilation
import Phrasebook.Proofs.Services
import Phrasebook.Proofs.Markup
import Phrasebook.Proofs.Nesting
import Phrasebook.Proofs.Loading
import Phrasebook.Proofs.Isolation
import Phrasebook.Proofs.Coverage
import Phrasebook.Proofs.WellFormed
import Phrasebook.Proofs.TemplateForm
import Phrasebook.Proofs.Mentions
import Phrasebook.Proofs.Spoken
import Phrasebook.Proofs.Requests
import Phrasebook.Proofs.Build
import Phrasebook.Proofs.RoundTrip
import Phrasebook.Proofs.Effects
import Phrasebook.Proofs.Schedules
import Phrasebook.Proofs.Selections
import Phrasebook.Proofs.SlotGroups
import Phrasebook.Proofs.Answers
import Phrasebook.Proofs.InMemory
import Phrasebook.Proofs.EditedSettings
import Phrasebook.Proofs.Keys
import Phrasebook.Proofs.EntityHistory
import Phrasebook.Proofs.Readers
import Phrasebook.Proofs.RecordLayouts
